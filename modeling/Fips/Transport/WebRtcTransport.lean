import Fips.Lib.Heap
import Fips.Lib.Run
import Fips.Transport.WebRtcSignal

/-!
# `WebRtcTransport.ts`, `WebRtcDial.ts`: dials, incoming offers and connections

The transport's state has its maps, the objects they refer to and its suspended functions: every
`await` ends a step, and an action of the environment resumes what is suspended, ends a timer or calls
a method. What the peer connections do is the environment's: operations on them succeed or fail, data
channels come and change state in any order.
-/

namespace Fips
open UnitStrings

/-! ## Objects -/

abbrev DialRef := Nat
abbrev InboundRef := Nat
abbrev ConnectionRef := Nat

inductive DialPhase
  | creatingOffer
  | gatheringIce
  | sendingOffer
  | awaitingAnswer
  | applyingAnswer
  | openingDataChannel
deriving DecidableEq, Inhabited

/-- How the promise of a dial is settled: by `IncomingOfferHandoff`, or another error, or none. -/
inductive DialOutcome
  | resolved
  | handoff
  | rejected
deriving DecidableEq

structure PendingDial where
  sessionId : NegotiationId
  remotePubkeyHex : PubkeyHex
  phase : DialPhase
  rejectedOfferId : Option NegotiationId
  retryOfferAfterRestart : Bool
  /-- Whether the timer runs. -/
  timer : Bool
  /-- What the first call of `resolve` or `reject` said. -/
  settled : Option DialOutcome
deriving DecidableEq, Inhabited

structure PendingInboundConnection where
  negotiationId : NegotiationId
  remotePubkeyHex : PubkeyHex
  timer : Bool
  /-- Whether its offer won over a dial. -/
  competingDial : Bool
deriving DecidableEq, Inhabited

/-- The negotiation that a connection came from. -/
inductive Negotiation
  | dial (d : DialRef)
  | inbound (i : InboundRef)
deriving DecidableEq, Inhabited

structure WebRtcConnection where
  remotePubkeyHex : PubkeyHex
  negotiation : Negotiation
deriving DecidableEq, Inhabited

inductive ConnectionState
  | connecting
  | connected
  | disconnected
  | failed
deriving DecidableEq

structure TransportContext where
  /-- Tells the contexts of two starts apart. -/
  id : Nat
  localPubkeyHex : PubkeyHex
  /-- Whether it has `sendLinkNegotiation`. -/
  sendLinkNegotiation : Bool
deriving DecidableEq

structure Cooldown where
  until_ : Int
  awaitingSessionRecovery : Bool
deriving DecidableEq

/-! ## Suspended functions -/

/-- What `connect` holds while its dial is pending. -/
structure ConnectCall where
  remotePubkeyHex : PubkeyHex
  isAutoConnect : Bool
  awaitingSessionRecovery : Bool
deriving DecidableEq

/-- What `startInitiatorHandshake` awaits. -/
inductive InitiatorStage
  | createOffer
  | setLocalDescription
  | iceGathering
  | sendOffer (signal : WebRtcSignal)
deriving DecidableEq

/-- What `handleIncomingOffer` awaits once its offer is pending. -/
inductive ResponderStage
  | setRemoteDescription
  | createAnswer
  | setLocalDescription
  | iceGathering
  | sendAnswer (signal : WebRtcSignal) (attempt : Nat)
  /-- The pause before the next attempt. -/
  | routeRetry (signal : WebRtcSignal) (attempt : Nat)
  | dataChannel
deriving DecidableEq

/-- `handleIncomingOffer` during `allowIncomingPeer`. -/
structure Admission where
  offer : WebRtcSignal
  remotePubkeyHex : PubkeyHex
  context : Option TransportContext
deriving DecidableEq

/-- A call of `sendWebRtcSignal`; one that is refused is not handed to the context. -/
structure SignalSend where
  remotePubkeyHex : PubkeyHex
  signal : WebRtcSignal
  handed : Bool
deriving DecidableEq

/-! ## The state -/

structure WebRtcTransport where
  ctx : Option TransportContext
  stopping : Bool
  conns : JsMap PubkeyHex ConnectionRef
  supersededConnections : List ConnectionRef
  pendingDials : JsMap NegotiationId DialRef
  pendingInbound : JsMap NegotiationId InboundRef
  pendingConnects : JsMap PubkeyHex DialRef
  autoConnectPeers : List PubkeyHex
  pendingAutoConnects : List PubkeyHex
  knownSessionIds : List NegotiationId
  seenSessionIds : List UnitString
  advertCache : JsMap UnitString CachedWebRtcAdvert
  peersWithTraffic : List PubkeyHex
  autoReconnectTimers : List PubkeyHex
  autoConnectAttempts : JsMap PubkeyHex Nat
  /-- `autoConnectPolicy.cooldowns`. -/
  cooldowns : JsMap PubkeyHex Cooldown
  autoConnectAttemptSequence : Nat
  /-- If `autoConnectFillTimer` runs, the local key that it fills slots with. -/
  autoConnectFillTimer : Option PubkeyHex
  /-- What `discoveryStream` has been pushed and the node has not used. -/
  discovered : List PubkeyHex
  dials : Heap PendingDial
  inbounds : Heap PendingInboundConnection
  connections : Heap WebRtcConnection
  connects : JsMap DialRef ConnectCall
  initiators : JsMap DialRef InitiatorStage
  /-- The calls of `sendPendingOffer` by `retryOffersAfterRestart`. -/
  retries : JsMap Nat (DialRef × WebRtcSignal)
  responders : JsMap InboundRef ResponderStage
  admissions : JsMap Nat Admission
  /-- The answers that are being applied. -/
  answers : JsMap Nat DialRef
  nextCall : Nat
  sends : List SignalSend

/-- What a step reads of the world. -/
structure Surroundings where
  /-- `ctx.allowPeer`; a key that `fromHex` throws on is not allowed. -/
  allowPeer : PubkeyHex → Bool
  nowMs : Int

def insertKey (k : PubkeyHex) (keys : List PubkeyHex) : List PubkeyHex := if k ∈ keys then keys else keys ++ [k]

def deleteKey (k : PubkeyHex) (keys : List PubkeyHex) : List PubkeyHex := keys.filter (· ≠ k)

namespace WebRtcTransport

def new : WebRtcTransport where
  ctx := none
  stopping := true
  conns := []
  supersededConnections := []
  pendingDials := []
  pendingInbound := []
  pendingConnects := []
  autoConnectPeers := []
  pendingAutoConnects := []
  knownSessionIds := []
  seenSessionIds := []
  advertCache := []
  peersWithTraffic := []
  autoReconnectTimers := []
  autoConnectAttempts := []
  cooldowns := []
  autoConnectAttemptSequence := 0
  autoConnectFillTimer := none
  discovered := []
  dials := .empty
  inbounds := .empty
  connections := .empty
  connects := []
  initiators := []
  retries := []
  responders := []
  admissions := []
  answers := []
  nextCall := 0
  sends := []

variable (cfg : ResolvedWebRtcTransportConfig) (w : Surroundings) (s : WebRtcTransport)

/-! ### Objects and addresses -/

def peerAllowed (pubkeyHex : PubkeyHex) : Bool := s.ctx.isNone || w.allowPeer pubkeyHex

def ownsDial (d : DialRef) : Bool := s.pendingDials.get (s.dials.get d).sessionId = some d

def ownsInbound (i : InboundRef) : Bool := s.pendingInbound.get (s.inbounds.get i).negotiationId = some i

def modifyDial (d : DialRef) (f : PendingDial → PendingDial) : WebRtcTransport := { s with dials := s.dials.modify d f }

/-- `dial.resolve()` or `dial.reject(err)`, of which only the first call settles. -/
def settleDial (d : DialRef) (outcome : DialOutcome) : WebRtcTransport :=
  s.modifyDial d fun dial => { dial with settled := dial.settled.or (some outcome) }

/-- `clearTimeout(dial.timer); this.pendingDials.delete(dial.sessionId);` and the settling of the dial. -/
def endDial (d : DialRef) (outcome : DialOutcome) : WebRtcTransport :=
  ({ s with pendingDials := s.pendingDials.delete (s.dials.get d).sessionId }.modifyDial d
    fun dial => { dial with timer := false }).settleDial d outcome

def hasPendingInboundForPeer (remotePubkeyHex : PubkeyHex) : Bool :=
  s.pendingInbound.any fun e => (s.inbounds.get e.2).remotePubkeyHex = remotePubkeyHex

def hasPendingDialForPeer (remotePubkeyHex : PubkeyHex) : Bool :=
  s.pendingDials.any fun e => (s.dials.get e.2).remotePubkeyHex = remotePubkeyHex

/-- Whether a path of the transport has the address. -/
def hasPath (candidate : PubkeyHex) : Bool :=
  (s.conns.get candidate).isSome || (s.pendingConnects.get candidate).isSome || s.hasPendingDialForPeer candidate ||
    s.hasPendingInboundForPeer candidate

def oppositeKey (key : PubkeyHex) : PubkeyHex := (if key.take 2 = js "02" then js "03" else js "02") ++ key.drop 2

def ownedPeerAddress (remotePubkeyHex : PubkeyHex) : PubkeyHex :=
  let normalized := toLowerCase remotePubkeyHex
  if isCompressedHex normalized = false then normalized
  else if s.hasPath normalized then normalized
  else if s.hasPath (oppositeKey normalized) then oppositeKey normalized
  else normalized

def clearPendingInbound (negotiationId : NegotiationId) : WebRtcTransport :=
  match s.pendingInbound.get negotiationId with
  | none => s
  | some i => { s with
      pendingInbound := s.pendingInbound.delete negotiationId
      inbounds := s.inbounds.modify i fun inbound => { inbound with timer := false } }

def sendWebRtcSignal (remotePubkeyHex : PubkeyHex) (signal : WebRtcSignal) : WebRtcTransport :=
  { s with sends := s.sends ++ [⟨remotePubkeyHex, signal, s.peerAllowed w remotePubkeyHex &&
      (s.ctx.map TransportContext.sendLinkNegotiation).getD false⟩] }

/-! ### Automatic dials -/

def speculativeAutoConnects : Nat := s.autoConnectPeers.length + s.pendingAutoConnects.length

def autoConnectCapacityUsed : Nat :=
  s.conns.length + s.pendingDials.length + s.pendingInbound.length + s.autoConnectPeers.length

def maxSpeculativeAutoConnects : JsNumber := JsNumber.max (.ofNat 1) cfg.maxConnections.half.floor

/-- `advertCache.prune`, which forgets the attempts of what it evicts. -/
def pruneAdverts : WebRtcTransport :=
  let evicted := s.advertCache.filter fun e => e.2.expiresAtMs ≤ w.nowMs
  { s with
    advertCache := s.advertCache.filter fun e => ¬ e.2.expiresAtMs ≤ w.nowMs
    autoConnectAttempts := evicted.foldl (fun attempts e => attempts.delete e.2.remoteAddr) s.autoConnectAttempts }

/-- An automatic dial is reserved and offered to the node, unless there is a connection. -/
def reserveAutoConnect (remote : PubkeyHex) : WebRtcTransport :=
  let s := { s with
    autoConnectAttemptSequence := s.autoConnectAttemptSequence + 1
    autoConnectAttempts := s.autoConnectAttempts.set remote (s.autoConnectAttemptSequence + 1)
    autoConnectPeers := insertKey remote s.autoConnectPeers }
  if s.stopping || s.ctx.isNone || (s.conns.get remote).isSome then
    { s with autoConnectPeers := deleteKey remote s.autoConnectPeers }
  else { s with discovered := s.discovered ++ [remote] }

/-- The loop of `fillAutoConnectSlots` over its candidates. -/
def fillFrom (reservePreferredSlot : Bool) : List CachedWebRtcAdvert → WebRtcTransport → WebRtcTransport
  | [], s => s
  | cached :: candidates, s =>
    let remote := cached.remoteAddr
    let limit := autoConnectLimit (preferredRanks cfg.preferredAutoConnectPeers) cfg.maxAutoConnections
      reservePreferredSlot remote
    let ownedRemote := s.ownedPeerAddress remote
    if s.peerAllowed w remote = false then fillFrom reservePreferredSlot candidates s
    else if limit.le (.ofNat s.autoConnectCapacityUsed) then fillFrom reservePreferredSlot candidates s
    else if (maxSpeculativeAutoConnects cfg).le (.ofNat s.speculativeAutoConnects) then s
    else if (s.conns.get ownedRemote).isSome || (s.pendingConnects.get ownedRemote).isSome ||
        remote ∈ s.autoConnectPeers || s.hasPendingInboundForPeer ownedRemote then
      fillFrom reservePreferredSlot candidates s
    else if ((s.cooldowns.get remote).map Cooldown.until_).getD 0 > w.nowMs then
      fillFrom reservePreferredSlot candidates s
    else fillFrom reservePreferredSlot candidates (s.reserveAutoConnect remote)

def fillAutoConnectSlots (localPubkeyHex : PubkeyHex) : WebRtcTransport :=
  if cfg.autoConnect = false || s.stopping || s.ctx.isNone then s
  else
    let s := s.pruneAdverts w
    let s := { s with cooldowns := s.cooldowns.filter fun e => ¬ e.2.until_ ≤ w.nowMs }
    let ranks := preferredRanks cfg.preferredAutoConnectPeers
    let partition := partitionByInitiator (s.advertCache.map Prod.snd) (localPubkeyHex.drop 2) cfg.acceptConnections
    let candidates := partition.1.insertionSort fun left right => candidateLe ranks s.autoConnectAttempts left right = true
    let reservePreferredSlot := shouldReserveSlot ranks (candidates.map CachedWebRtcAdvert.remoteAddr)
      (s.conns.map Prod.fst ++ s.pendingConnects.map Prod.fst ++ s.autoConnectPeers ++
        partition.2.map CachedWebRtcAdvert.remoteAddr)
    fillFrom cfg w reservePreferredSlot candidates s

/-- The key that `fillAutoConnectSlots` takes where it is given none. -/
def localKey : PubkeyHex := (s.ctx.map TransportContext.localPubkeyHex).getD []

def scheduleAutoReconnect (remotePubkeyHex : PubkeyHex) : WebRtcTransport :=
  let s := { s with autoConnectPeers := deleteKey remotePubkeyHex s.autoConnectPeers }
  if cfg.autoConnect = false || s.stopping || s.ctx.isNone then s
  else { s with autoReconnectTimers := insertKey remotePubkeyHex s.autoReconnectTimers }

/-- `autoConnectPolicy.recordFailure`. -/
def recordFailure (remote : PubkeyHex) (awaitingSessionRecovery : Bool) : WebRtcTransport :=
  let pause := if ((preferredRanks cfg.preferredAutoConnectPeers).get remote).isSome then 1000 else 30000
  { s with cooldowns := s.cooldowns.set remote ⟨w.nowMs + pause, awaitingSessionRecovery⟩ }

def handleAutoConnectFailure (remotePubkeyHex : PubkeyHex) (awaitingSessionRecovery : Bool) : WebRtcTransport :=
  if cfg.autoConnect = false || s.stopping then s
  else
    let s := { s with autoConnectPeers := deleteKey remotePubkeyHex s.autoConnectPeers }
    let s := (s.recordFailure cfg w remotePubkeyHex awaitingSessionRecovery).scheduleAutoReconnect cfg remotePubkeyHex
    s.fillAutoConnectSlots cfg w s.localKey

def retireExistingConnection (remotePubkeyHex : PubkeyHex) : WebRtcTransport :=
  match s.conns.get remotePubkeyHex with
  | none => s
  | some existing => { s with
      conns := s.conns.delete remotePubkeyHex
      peersWithTraffic := deleteKey remotePubkeyHex s.peersWithTraffic
      supersededConnections := existing :: s.supersededConnections }

/-! ### Dials -/

/-- The synchronous part of `connect`; `created` says whether the peer connection could be made. -/
def connect (addr : PubkeyHex) (sessionId : NegotiationId) (created : Bool) : WebRtcTransport :=
  let remotePubkeyHex := s.ownedPeerAddress addr
  if addr.length ≠ 66 || s.peerAllowed w remotePubkeyHex = false then s
  else
    let isAutoConnect : Bool := addr ∈ s.autoConnectPeers
    let s := { s with autoConnectPeers := deleteKey addr s.autoConnectPeers }
    if (s.conns.get remotePubkeyHex).isSome || (s.pendingConnects.get remotePubkeyHex).isSome then s
    else
      let s := if isAutoConnect then { s with pendingAutoConnects := insertKey remotePubkeyHex s.pendingAutoConnects } else s
      if (s.ctx.map TransportContext.sendLinkNegotiation).getD false = false then s
      else
        let s := { s with knownSessionIds := sessionId :: s.knownSessionIds }
        if created = false then s
        else
          let d := s.dials.next
          { s with
            dials := s.dials.alloc ⟨sessionId, remotePubkeyHex, .creatingOffer, none, false, true, none⟩
            pendingDials := s.pendingDials.set sessionId d
            pendingConnects := s.pendingConnects.set remotePubkeyHex d
            connects := s.connects.set d ⟨remotePubkeyHex, isAutoConnect, false⟩
            initiators := s.initiators.set d .createOffer }

/-- The `finally` of `connect`. -/
def connectFinally (d : DialRef) (call : ConnectCall) : WebRtcTransport :=
  let s := { s with
    pendingConnects := if s.pendingConnects.get call.remotePubkeyHex = some d then
      s.pendingConnects.delete call.remotePubkeyHex else s.pendingConnects
    autoConnectPeers := if (s.conns.get call.remotePubkeyHex).isNone then
      deleteKey call.remotePubkeyHex s.autoConnectPeers else s.autoConnectPeers }
  if call.isAutoConnect then
    let s := { s with pendingAutoConnects := deleteKey call.remotePubkeyHex s.pendingAutoConnects }
    s.fillAutoConnectSlots cfg w s.localKey
  else s

/-- `connect` after its promise is settled. -/
def connectSettled (d : DialRef) : WebRtcTransport :=
  match s.connects.get d, (s.dials.get d).settled with
  | some call, some outcome =>
    let s := { s with connects := s.connects.delete d }
    (if outcome = .rejected then s.handleAutoConnectFailure cfg w call.remotePubkeyHex call.awaitingSessionRecovery
      else s).connectFinally cfg w d call
  | _, _ => s

/-- A round of the loop of `sendPendingOffer`. -/
def sendOffer (d : DialRef) (signal : WebRtcSignal) : WebRtcTransport :=
  (s.modifyDial d fun dial => { dial with retryOfferAfterRestart := false }).sendWebRtcSignal w
    (s.dials.get d).remotePubkeyHex signal

def offerSignal (d : DialRef) (sdp : UnitString) : WebRtcSignal :=
  createWebRtcSignal w.nowMs (s.dials.get d).sessionId .offer ⟨some sdp, none⟩

/-- `sendPendingOffer` up to its first `await`. -/
def sendPendingOffer (d : DialRef) (signal : WebRtcSignal) : WebRtcTransport :=
  (s.modifyDial d fun dial => { dial with phase := .sendingOffer }).sendOffer w d signal

/-- Whether `sendPendingOffer` goes round again after a send of a dial that is still pending. -/
def retriesOffer (d : DialRef) : Bool :=
  (s.dials.get d).retryOfferAfterRestart && (s.dials.get d).phase = .sendingOffer

/-- The end of `sendPendingOffer`. -/
def offerSent (d : DialRef) : WebRtcTransport :=
  s.modifyDial d fun dial => { dial with phase := if dial.phase = .sendingOffer then .awaitingAnswer else dial.phase }

/-- `startInitiatorHandshake` after what it awaits is settled; after the offer it makes the connection. -/
def initiatorSettled (d : DialRef) (ok : Bool) (sdp : UnitString) : WebRtcTransport :=
  match s.initiators.get d with
  | none => s
  | some stage =>
    let ended := { s with initiators := s.initiators.delete d }
    if ok = false && stage ≠ .iceGathering then
      -- the `catch` of `connect`
      let recovery : Bool := (s.dials.get d).phase = .sendingOffer
      { ended with connects := match s.connects.get d with
          | some call => s.connects.set d { call with awaitingSessionRecovery := recovery }
          | none => s.connects }.endDial d .rejected
    else if s.ownsDial d = false then ended
    else
      match stage with
      | .createOffer =>
        { s with initiators := s.initiators.set d .setLocalDescription }.modifyDial d
          fun dial => { dial with phase := .gatheringIce }
      | .setLocalDescription => { s with initiators := s.initiators.set d .iceGathering }
      | .iceGathering =>
        let signal := s.offerSignal w d sdp
        { s with initiators := s.initiators.set d (.sendOffer signal) }.sendPendingOffer w d signal
      | .sendOffer signal =>
        if s.retriesOffer d then s.sendOffer w d signal
        else
          { ended.offerSent d with
            connections := s.connections.alloc ⟨(s.dials.get d).remotePubkeyHex, .dial d⟩ }

/-- The `sendPendingOffer` of a retry after its send is settled. -/
def retrySettled (call : Nat) (ok : Bool) : WebRtcTransport :=
  match s.retries.get call with
  | none => s
  | some (d, signal) =>
    let ended := { s with retries := s.retries.delete call }
    if ok = false then
      -- no send remains in flight
      if s.ownsDial d && (s.dials.get d).phase = .sendingOffer then
        ended.modifyDial d fun dial => { dial with phase := .awaitingAnswer }
      else ended
    else if s.ownsDial d = false then ended
    else if s.retriesOffer d then s.sendOffer w d signal
    else ended.offerSent d

/-- What `retryOffersAfterRestart` does with a pending dial; the description is that of its peer connection. -/
def retryOffer (remote : PubkeyHex) (localDescription : DialRef → UnitString) (s : WebRtcTransport) (d : DialRef) :
    WebRtcTransport :=
  if (s.dials.get d).remotePubkeyHex ≠ remote then s
  else if (s.dials.get d).phase = .sendingOffer then
    s.modifyDial d fun dial => { dial with retryOfferAfterRestart := true }
  else if (s.dials.get d).phase = .awaitingAnswer then
    let signal := s.offerSignal w d (localDescription d)
    { s with retries := s.retries.set s.nextCall (d, signal), nextCall := s.nextCall + 1 }.sendPendingOffer w d signal
  else s

def retryOffersAfterRestart (remote : PubkeyHex) (localDescription : DialRef → UnitString) : WebRtcTransport :=
  (s.pendingDials.map Prod.snd).foldl (retryOffer w remote localDescription) s

def handleSessionEstablished (remotePubkeyHex : PubkeyHex) (restarted : Bool) (localDescription : DialRef → UnitString) :
    WebRtcTransport :=
  if s.peerAllowed w remotePubkeyHex = false then s
  else
    let remotePubkeyHex := s.ownedPeerAddress remotePubkeyHex
    let s := if restarted then s.retryOffersAfterRestart w remotePubkeyHex localDescription else s
    if ((s.cooldowns.get remotePubkeyHex).map Cooldown.awaitingSessionRecovery).getD false = false then s
    else
      let s := { s with
        cooldowns := s.cooldowns.delete remotePubkeyHex
        autoReconnectTimers := deleteKey remotePubkeyHex s.autoReconnectTimers }
      s.scheduleAutoReconnect cfg remotePubkeyHex

/-! ### Signals -/

def rejectIncomingOffer (offer : WebRtcSignal) (remotePubkeyHex : PubkeyHex) : WebRtcTransport :=
  s.sendWebRtcSignal w remotePubkeyHex (createWebRtcSignal w.nowMs offer.negotiationId .reject ⟨none, none⟩)

def isRetryOfRejectedOffer (d : DialRef) (negotiationId : NegotiationId) : Bool :=
  (s.dials.get d).rejectedOfferId.isSome && (s.dials.get d).rejectedOfferId ≠ some negotiationId &&
    (s.dials.get d).phase = .awaitingAnswer

def incomingOfferReplacesPendingDial (localPubkeyHex remotePubkeyHex : PubkeyHex) : Bool :=
  toLowerCase (remotePubkeyHex.drop 2) < toLowerCase (localPubkeyHex.drop 2)

/-- The connection limit of `handleIncomingOffer`. -/
def atConnectionLimit (remotePubkeyHex : PubkeyHex) : Bool :=
  cfg.maxConnections.le (.ofNat (s.conns.length + s.pendingDials.length + s.pendingInbound.length
    - (if (s.conns.get remotePubkeyHex).isSome then 1 else 0)))

/-- The end of the synchronous part of `handleIncomingOffer`. -/
def acceptIncomingOffer (offer : WebRtcSignal) (remotePubkeyHex : PubkeyHex) (competingDial : Bool) : WebRtcTransport :=
  if s.atConnectionLimit cfg remotePubkeyHex then s.rejectIncomingOffer w offer remotePubkeyHex
  else
    let i := s.inbounds.next
    { s with
      inbounds := s.inbounds.alloc ⟨offer.negotiationId, remotePubkeyHex, true, competingDial⟩
      pendingInbound := s.pendingInbound.set offer.negotiationId i
      responders := s.responders.set i .setRemoteDescription }

/-- `handleIncomingOffer` from the admission on. -/
def admitIncomingOffer (offer : WebRtcSignal) (remotePubkeyHex localPubkeyHex : PubkeyHex) (competingDial : Option DialRef) :
    WebRtcTransport :=
  if s.hasPendingInboundForPeer remotePubkeyHex then s.rejectIncomingOffer w offer remotePubkeyHex
  else
    match competingDial with
    | none => s.acceptIncomingOffer cfg w offer remotePubkeyHex false
    | some d =>
      if incomingOfferReplacesPendingDial localPubkeyHex remotePubkeyHex = false
          && s.isRetryOfRejectedOffer d offer.negotiationId = false then
        (s.modifyDial d fun dial =>
          { dial with rejectedOfferId := dial.rejectedOfferId.or (some offer.negotiationId) }).rejectIncomingOffer w offer
            remotePubkeyHex
      else (s.endDial d .handoff).acceptIncomingOffer cfg w offer remotePubkeyHex true

def competingDial (remotePubkeyHex : PubkeyHex) : Option DialRef :=
  (s.pendingDials.map Prod.snd).find? fun d => (s.dials.get d).remotePubkeyHex = remotePubkeyHex

def handleIncomingOffer (offer : WebRtcSignal) (remotePubkeyHex localPubkeyHex : PubkeyHex) : WebRtcTransport :=
  if (s.pendingInbound.get offer.negotiationId).isSome then s
  else
    match s.competingDial remotePubkeyHex with
    | some d =>
      if s.peerAllowed w remotePubkeyHex = false then s
      else s.admitIncomingOffer cfg w offer remotePubkeyHex localPubkeyHex (some d)
    | none =>
      if cfg.acceptConnections = false then s.rejectIncomingOffer w offer remotePubkeyHex
      else if cfg.allowIncomingPeer then
        { s with admissions := s.admissions.set s.nextCall ⟨offer, remotePubkeyHex, s.ctx⟩, nextCall := s.nextCall + 1 }
      else if s.peerAllowed w remotePubkeyHex = false then s
      else s.admitIncomingOffer cfg w offer remotePubkeyHex localPubkeyHex none

/-- `handleIncomingOffer` after `allowIncomingPeer`; none is a throw. -/
def admissionSettled (call : Nat) (admitted : Option Bool) : WebRtcTransport :=
  match s.admissions.get call with
  | none => s
  | some admission =>
    let s := { s with admissions := s.admissions.delete call }
    match admitted with
    | none => s
    | some admitted =>
      if s.ctx ≠ admission.context || s.peerAllowed w admission.remotePubkeyHex = false then s
      else if admitted = false then s.rejectIncomingOffer w admission.offer admission.remotePubkeyHex
      else s.admitIncomingOffer cfg w admission.offer admission.remotePubkeyHex s.localKey none

def validationContext : WebRtcSignalValidationContext := ⟨s.knownSessionIds, s.seenSessionIds, w.nowMs⟩

/-- What a valid signal does. -/
def handleValidSignal (signal : WebRtcSignal) (remotePubkeyHex localPubkeyHex : PubkeyHex) : WebRtcTransport :=
  match signal.kind with
  | .offer => s.handleIncomingOffer cfg w signal remotePubkeyHex localPubkeyHex
  | .answer =>
    match s.pendingDials.get signal.negotiationId with
    | none => s
    | some d => { s with answers := s.answers.set s.nextCall d, nextCall := s.nextCall + 1 }.modifyDial d
        fun dial => { dial with phase := .applyingAnswer }
  | .reject =>
    match s.pendingDials.get signal.negotiationId with
    | none => s
    | some d => ({ s with pendingDials := s.pendingDials.delete signal.negotiationId }.modifyDial d
        fun dial => { dial with timer := false }).settleDial d .rejected
  | .candidate => s

def handleIncomingSignal (signal : WebRtcSignal) (remotePubkeyHex : PubkeyHex) : WebRtcTransport :=
  match s.ctx with
  | none => s
  | some ctx =>
    if s.peerAllowed w remotePubkeyHex = false then s
    else
      let remotePubkeyHex := s.ownedPeerAddress remotePubkeyHex
      match validateWebRtcSignal signal (s.validationContext w) with
      | .error _ => s
      | .ok valid =>
        { s with seenSessionIds := replayKey valid.negotiationId valid.kind :: s.seenSessionIds }.handleValidSignal cfg w valid
          remotePubkeyHex ctx.localPubkeyHex

/-- `handleIncomingSignal` after `setRemoteDescription` of an answer. -/
def answerSettled (call : Nat) (ok : Bool) : WebRtcTransport :=
  match s.answers.get call with
  | none => s
  | some d =>
    let s := { s with answers := s.answers.delete call }
    if ok then s.modifyDial d fun dial => { dial with phase := .openingDataChannel } else s

/-- The `catch` of `handleIncomingOffer`. -/
def responderFailed (i : InboundRef) : WebRtcTransport :=
  let s := { s with responders := s.responders.delete i }.clearPendingInbound (s.inbounds.get i).negotiationId
  if (s.inbounds.get i).competingDial then s.scheduleAutoReconnect cfg (s.inbounds.get i).remotePubkeyHex else s

/-- `handleIncomingOffer` after what it awaits is settled. A failed send is tried again if it found no route. -/
def responderSettled (i : InboundRef) (ok noRoute : Bool) (sdp : UnitString) : WebRtcTransport :=
  match s.responders.get i with
  | none => s
  | some stage =>
    let ended := { s with responders := s.responders.delete i }
    let owned := s.ownsInbound i
    let goOn (stage : ResponderStage) : WebRtcTransport :=
      if owned then { s with responders := s.responders.set i stage } else ended
    match stage with
    | .setRemoteDescription => if ok then goOn .createAnswer else s.responderFailed cfg i
    | .createAnswer => if ok then goOn .setLocalDescription else s.responderFailed cfg i
    | .setLocalDescription => if ok then goOn .iceGathering else s.responderFailed cfg i
    | .iceGathering =>
      if owned = false then ended
      else
        let inbound := s.inbounds.get i
        let signal := createWebRtcSignal w.nowMs inbound.negotiationId .answer ⟨some sdp, none⟩
        { s with
          knownSessionIds := inbound.negotiationId :: s.knownSessionIds
          responders := s.responders.set i (.sendAnswer signal 0) }.sendWebRtcSignal w inbound.remotePubkeyHex signal
    | .sendAnswer signal attempt =>
      if ok then goOn .dataChannel
      else if noRoute = false || attempt = 3 then s.responderFailed cfg i
      else { s with responders := s.responders.set i (.routeRetry signal attempt) }
    | .routeRetry signal attempt =>
      if owned = false then ended
      else { s with responders := s.responders.set i (.sendAnswer signal (attempt + 1)) }.sendWebRtcSignal w
        (s.inbounds.get i).remotePubkeyHex signal
    -- the data channel has come
    | .dataChannel =>
      if owned = false then ended
      else { ended with connections := s.connections.alloc ⟨(s.inbounds.get i).remotePubkeyHex, .inbound i⟩ }

/-! ### Connections -/

def ownsConnection (c : ConnectionRef) : Bool :=
  c < s.connections.next &&
    ((match (s.connections.get c).negotiation with
      | .dial d => s.ownsDial d
      | .inbound i => s.ownsInbound i) ||
    s.conns.get (s.connections.get c).remotePubkeyHex = some c)

/-- `onState` of the connection of a dial. -/
def dialConnectionState (c : ConnectionRef) (d : DialRef) (state : ConnectionState) : WebRtcTransport :=
  let remote := (s.dials.get d).remotePubkeyHex
  let settle (outcome : DialOutcome) (s : WebRtcTransport) : WebRtcTransport :=
    if (s.pendingDials.get (s.dials.get d).sessionId).isSome then s.endDial d outcome else s
  match state with
  | .connecting => s
  | .connected => settle .resolved { s with conns := s.conns.set remote c }
  | .failed | .disconnected => settle .rejected ({ s with conns := s.conns.delete remote }.scheduleAutoReconnect cfg remote)

def handleInboundConnectionState (negotiationId : NegotiationId) (c : ConnectionRef) (state : ConnectionState) :
    WebRtcTransport :=
  let remote := (s.connections.get c).remotePubkeyHex
  let existing := s.conns.get remote
  let other := existing.filter (· ≠ c)
  let ended : Bool := state = .failed || state = .disconnected
  if state = .connected then
    let s := { s with conns := s.conns.set remote c }.clearPendingInbound negotiationId
    { s with supersededConnections := other.toList ++ s.supersededConnections }
  else if other.isSome then if ended then s.clearPendingInbound negotiationId else s
  else if ended then
    ({ s with conns := s.conns.delete remote }.clearPendingInbound negotiationId).scheduleAutoReconnect cfg remote
  else s

def connectionState (c : ConnectionRef) (state : ConnectionState) : WebRtcTransport :=
  if s.ownsConnection c = false || c ∈ s.supersededConnections then s
  else
    match (s.connections.get c).negotiation with
    | .dial d => s.dialConnectionState cfg c d state
    | .inbound i => s.handleInboundConnectionState cfg (s.inbounds.get i).negotiationId c state

/-- `onPacket`. -/
def packet (c : ConnectionRef) : WebRtcTransport :=
  if s.ownsConnection c then
    { s with peersWithTraffic := insertKey (s.connections.get c).remotePubkeyHex s.peersWithTraffic }
  else s

/-! ### Timers, start, stop and close -/

def dialTimeout (d : DialRef) : WebRtcTransport :=
  if (s.dials.get d).timer then s.endDial d .rejected else s

def inboundTimeout (i : InboundRef) : WebRtcTransport :=
  let inbound := s.inbounds.get i
  if inbound.timer then
    let s := { s with
      pendingInbound := s.pendingInbound.delete inbound.negotiationId
      inbounds := s.inbounds.modify i fun inbound => { inbound with timer := false } }
    if inbound.competingDial then s.scheduleAutoReconnect cfg inbound.remotePubkeyHex else s
  else s

def autoReconnectTimeout (remotePubkeyHex : PubkeyHex) : WebRtcTransport :=
  if remotePubkeyHex ∈ s.autoReconnectTimers then
    let s := { s with autoReconnectTimers := deleteKey remotePubkeyHex s.autoReconnectTimers }
    if s.stopping || s.ctx.isNone || (s.conns.get remotePubkeyHex).isSome then s
    else s.fillAutoConnectSlots cfg w s.localKey
  else s

def autoConnectFillTimeout : WebRtcTransport :=
  match s.autoConnectFillTimer with
  | none => s
  | some localPubkeyHex => { s with autoConnectFillTimer := none }.fillAutoConnectSlots cfg w localPubkeyHex

def start (ctx : TransportContext) : WebRtcTransport := { s with stopping := false, ctx := some ctx }

def stop : WebRtcTransport :=
  let s := { s with
    stopping := true
    autoReconnectTimers := []
    cooldowns := []
    autoConnectAttempts := []
    autoConnectAttemptSequence := 0
    autoConnectFillTimer := none
    conns := []
    autoConnectPeers := []
    pendingAutoConnects := [] }
  let s := (s.pendingDials.map Prod.snd).foldl (fun s d => s.endDial d .rejected) s
  let s := (s.pendingInbound.map Prod.fst).foldl (fun s negotiationId => s.clearPendingInbound negotiationId) s
  -- the node may still use what it has taken from the stream
  { s with
    pendingConnects := []
    knownSessionIds := []
    seenSessionIds := []
    advertCache := []
    peersWithTraffic := []
    ctx := none }

/-- `close` with a dial of the address, which it also forgets. -/
def closeDial (d : DialRef) : WebRtcTransport :=
  { s with knownSessionIds := s.knownSessionIds.filter (· ≠ (s.dials.get d).sessionId) }.endDial d .rejected

def close (addr : PubkeyHex) : WebRtcTransport :=
  let remotePubkeyHex := s.ownedPeerAddress addr
  let s := ((s.pendingDials.map Prod.snd).filter fun d => (s.dials.get d).remotePubkeyHex = remotePubkeyHex).foldl
    closeDial s
  let s := ((s.pendingInbound.filter fun e => (s.inbounds.get e.2).remotePubkeyHex = remotePubkeyHex).map Prod.fst).foldl
    (fun s negotiationId => s.clearPendingInbound negotiationId) s
  let provenPeer : Bool := remotePubkeyHex ∈ s.peersWithTraffic
  let s := { s with peersWithTraffic := deleteKey remotePubkeyHex s.peersWithTraffic }.retireExistingConnection remotePubkeyHex
  if provenPeer || remotePubkeyHex ∈ s.autoReconnectTimers then s.scheduleAutoReconnect cfg remotePubkeyHex
  else s.handleAutoConnectFailure cfg w remotePubkeyHex false

/-! ### Adverts -/

def MAX_ADVERT_CACHE_ENTRIES : Nat := 256

/-- `advertCache.evict`. -/
def evictAdvert (nodeAddrHex : UnitString) : WebRtcTransport :=
  match s.advertCache.get nodeAddrHex with
  | none => s
  | some evicted => { s with
      advertCache := s.advertCache.delete nodeAddrHex
      autoConnectAttempts := s.autoConnectAttempts.delete evicted.remoteAddr }

/-- `advertCache.store` of an advert that has not expired. -/
def storeAdvert (nodeAddrHex : UnitString) (advert : CachedWebRtcAdvert) : WebRtcTransport :=
  if ((s.advertCache.get nodeAddrHex).map CachedWebRtcAdvert.createdAtSeconds).any (· > advert.createdAtSeconds) then s
  else
    let s := { s with advertCache := s.advertCache.delete nodeAddrHex }
    let excess := s.advertCache.length + 1 - MAX_ADVERT_CACHE_ENTRIES
    let s := ((s.advertCache.take excess).map Prod.fst).foldl (fun s oldest => s.evictAdvert oldest) s
    { s with advertCache := s.advertCache.set nodeAddrHex advert }

/-- `handleAdvert` with one endpoint. The expiry is that of `advertExpiryMs`, and `requested` says
whether someone waits for the advert. -/
def handleAdvert (addr eventPubkey nodeAddrHex : UnitString) (createdAtSeconds : Int) (expiresAtMs : Option Int)
    (requested : Bool) : WebRtcTransport :=
  let remotePubkeyHex := toLowerCase addr
  if isCompressedHex remotePubkeyHex = false || remotePubkeyHex.drop 2 ≠ toLowerCase eventPubkey ||
      remotePubkeyHex = s.localKey || s.peerAllowed w remotePubkeyHex = false then s
  else
    let s := s.pruneAdverts w
    match expiresAtMs.filter (· > w.nowMs) with
    | none => s
    | some expiresAtMs =>
      let localPubkeyHex := s.localKey
      let s := s.storeAdvert nodeAddrHex ⟨remotePubkeyHex, createdAtSeconds, expiresAtMs⟩
      if cfg.autoConnect && !requested && s.autoConnectFillTimer.isNone then
        { s with autoConnectFillTimer := some localPubkeyHex }
      else s

/-- `advertCache.get` in `resolve`. -/
def resolve (nodeAddrHex : UnitString) : WebRtcTransport :=
  match s.advertCache.get nodeAddrHex with
  | none => s
  | some cached =>
    if cached.expiresAtMs ≤ w.nowMs then s.evictAdvert nodeAddrHex
    else { s with advertCache := (s.advertCache.delete nodeAddrHex).set nodeAddrHex cached }

def connectDiscovered (n : Nat) (sessionId : NegotiationId) (created : Bool) : WebRtcTransport :=
  match s.discovered[n]? with
  | none => s
  | some addr => { s with discovered := s.discovered.eraseIdx n }.connect w addr sessionId created

/-! ### Steps -/

inductive Action
  | start (ctx : TransportContext)
  | stop
  /-- The application connects. -/
  | connect (addr : PubkeyHex) (sessionId : NegotiationId) (created : Bool)
  /-- The node connects to a peer that it has been given by discovery. -/
  | connectDiscovered (n : Nat) (sessionId : NegotiationId) (created : Bool)
  | connectSettled (d : DialRef)
  | initiatorSettled (d : DialRef) (ok : Bool) (sdp : UnitString)
  | retrySettled (call : Nat) (ok : Bool)
  | sessionEstablished (remotePubkeyHex : PubkeyHex) (restarted : Bool) (localDescription : DialRef → UnitString)
  | linkNegotiation (remotePubkeyHex : PubkeyHex) (signal : WebRtcSignal)
  | admissionSettled (call : Nat) (admitted : Option Bool)
  | answerSettled (call : Nat) (ok : Bool)
  | responderSettled (i : InboundRef) (ok noRoute : Bool) (sdp : UnitString)
  | connectionState (c : ConnectionRef) (state : ConnectionState)
  | packet (c : ConnectionRef)
  | dialTimeout (d : DialRef)
  | inboundTimeout (i : InboundRef)
  | autoReconnectTimeout (remotePubkeyHex : PubkeyHex)
  | autoConnectFillTimeout
  | close (addr : PubkeyHex)
  | advert (addr eventPubkey nodeAddrHex : UnitString) (createdAtSeconds : Int) (expiresAtMs : Option Int) (requested : Bool)
  | resolve (nodeAddrHex : UnitString)

def step (s : WebRtcTransport) (e : Surroundings × Action) : WebRtcTransport :=
  match e.2 with
  | .start ctx => s.start ctx
  | .stop => s.stop
  | .connect addr sessionId created => s.connect e.1 addr sessionId created
  | .connectDiscovered n sessionId created => s.connectDiscovered e.1 n sessionId created
  | .connectSettled d => s.connectSettled cfg e.1 d
  | .initiatorSettled d ok sdp => s.initiatorSettled e.1 d ok sdp
  | .retrySettled call ok => s.retrySettled e.1 call ok
  | .sessionEstablished remote restarted localDescription =>
    s.handleSessionEstablished cfg e.1 remote restarted localDescription
  | .linkNegotiation remote signal => s.handleIncomingSignal cfg e.1 signal remote
  | .admissionSettled call admitted => s.admissionSettled cfg e.1 call admitted
  | .answerSettled call ok => s.answerSettled call ok
  | .responderSettled i ok noRoute sdp => s.responderSettled cfg e.1 i ok noRoute sdp
  | .connectionState c state => s.connectionState cfg c state
  | .packet c => s.packet c
  | .dialTimeout d => s.dialTimeout d
  | .inboundTimeout i => s.inboundTimeout cfg i
  | .autoReconnectTimeout remote => s.autoReconnectTimeout cfg e.1 remote
  | .autoConnectFillTimeout => s.autoConnectFillTimeout cfg e.1
  | .close addr => s.close cfg e.1 addr
  | .advert addr eventPubkey nodeAddrHex createdAtSeconds expiresAtMs requested =>
    s.handleAdvert cfg e.1 addr eventPubkey nodeAddrHex createdAtSeconds expiresAtMs requested
  | .resolve nodeAddrHex => s.resolve e.1 nodeAddrHex

end WebRtcTransport

end Fips
