import Fips.Lib.Run
import Fips.Node.PacketProcessor

/-!
# `node/FipsNode.ts`: connections, and the steps of a node

A connection is a coroutine that awaits its transport, the sending of its Msg1 and its handshake. Beside
the stretches of these and the packets of `PacketProcessor`, a step is a timer, the end of a transport's
connection, a message of the routing layer, a heartbeat, or a part of starting and stopping, in any order.
-/

namespace Fips
open Exec LittleEndian

abbrev ConnectId := Nat

namespace FipsNode

/-! ### Connections -/

def setConnectStage (c : ConnectId) (stage : ConnectStage) (n : FipsNode) : FipsNode :=
  { n with connects := n.connects.modify c fun k => { k with stage := stage } }

/-- `connectKnownPeer`, up to where it waits. -/
def connectKnownPeer (transport : TransportId) (addr : TransportAddress) (remotePubkey : Bytes) : NM Unit := do
  assertPeerAllowed remotePubkey
  if ¬ IsCompressed remotePubkey then throw "remote pubkey must be 33-byte compressed secp256k1 key"
  let n ← get
  let key := transportAddressKey addr
  if (n.pendingPeerConnects.get key).isSome then return
  if (n.peers.get key).any fun pid => n.linkState pid = .established then return
  set ({ n with
    connects := n.connects.alloc ⟨transport, addr, remotePubkey, n.discoveryGeneration, .connecting⟩
    pendingPeerConnects := n.pendingPeerConnects.set key n.connects.next }.record (.connect addr remotePubkey))

/-- The connection may still go on. -/
def assertCurrent (c : ConnectId) : NM Unit := do
  let k := (← get).connects.get c
  assertPeerAllowed k.remotePubkey
  if k.generation ≠ (← get).discoveryGeneration then throw "FIPS connection was revoked"

/-- `sendMsg1`, up to where it waits. -/
def sendMsg1 (c : ConnectId) (msg1 : Bytes) : NM Unit := do
  assertCurrent c
  modify fun n => n.record (.send (n.connects.get c).addr msg1 [(n.connects.get c).remotePubkey] none)

/-- The `finally` of `connectAdjacentPeer` after a throw. -/
def connectFailed (S : Suite) (cfg : NodeConfig) (env : NodeEnv) (c : ConnectId) (pid : PeerId) (n : FipsNode) : FipsNode :=
  let n := (n.clearOutgoing pid).setConnectStage c .settled
  let key := transportAddressKey (n.connects.get c).addr
  if n.peers.get key = some pid then
    ((n.closeLink (n.peer pid).link).discardPending pid).removePeerPath S cfg env key pid false
  else n

/-- The peer object of a connection, with its initiator link and its handshake. -/
def newInitiator (S : Suite) (cfg : NodeConfig) (c : ConnectId) : NM PeerId := do
  let k := (← get).connects.get c
  let lid ← newLink S cfg (some k.remotePubkey) .initiator
  let n ← get
  let n := { n with handshakes := n.handshakes.alloc ⟨.pending, none⟩ }
  set (n.installPeer (transportAddressKey k.addr)
    { pubkey := k.remotePubkey, remoteAddr := k.addr, transport := k.transport, link := lid,
      outgoingHandshake := some (n.handshakes.next - 1) })
  return n.objs.next

/-- The first Msg1 of a connection. -/
def sendFirstMsg1 (S : Suite) (env : NodeEnv) (c : ConnectId) (pid : PeerId) : NM Unit := do
  let p := (← get).peer pid
  let msg1 ← onLink p.link (FmpLink.buildMsg1 S env.random)
  sendMsg1 c msg1
  match p.outgoingHandshake with
  | some hid => modify (setConnectStage c (.sendingMsg1 pid hid msg1))
  | none => pure ()

/-- The transport has connected: what is stored at the address gives way, unless it has been established. -/
def transportConnected (S : Suite) (cfg : NodeConfig) (env : NodeEnv) (c : ConnectId) : NM Unit := do
  assertCurrent c
  let n ← get
  let stored := n.peers.get (transportAddressKey (n.connects.get c).addr)
  if stored.any fun pid => n.linkState pid = .established then
    set (n.setConnectStage c .settled)
    return
  set (stored.elim n fun pid => (n.discardPending pid).closeLink (n.peer pid).link)
  let pid ← newInitiator S cfg c
  let n ← get
  match (sendFirstMsg1 S env c pid).run n with
  | .ok _ n => set n
  | .error e n =>
    set (n.connectFailed S cfg env c pid)
    throw e

/-- `transport.connect` of a connection has settled. -/
def connected (S : Suite) (cfg : NodeConfig) (env : NodeEnv) (c : ConnectId) (ok : Bool) (n : FipsNode) : FipsNode :=
  if (n.connects.get c).stage ≠ .connecting then n
  else if !ok then n.setConnectStage c .settled
  else
    match (transportConnected S cfg env c).run n with
    | .ok _ n => n
    | .error _ n => n.setConnectStage c .settled

/-- The first Msg1 has been sent, or could not be. -/
def msg1Sent (S : Suite) (cfg : NodeConfig) (env : NodeEnv) (c : ConnectId) (ok : Bool) (n : FipsNode) : FipsNode :=
  match (n.connects.get c).stage with
  | .sendingMsg1 pid hid msg1 =>
    if ok then n.setConnectStage c (.waiting pid hid msg1) else n.connectFailed S cfg env c pid
  | _ => n

/-- The resend timer fires. -/
def resendMsg1 (c : ConnectId) (n : FipsNode) : FipsNode :=
  match (n.connects.get c).stage with
  | .waiting pid _ msg1 => if (n.peer pid).outgoingHandshake.isNone then n else after (sendMsg1 c msg1) n
  | _ => n

/-- The timeout of a handshake fires. -/
def handshakeTimeout (c : ConnectId) (n : FipsNode) : FipsNode :=
  match (n.connects.get c).stage with
  | .waiting pid _ _ => n.rejectOutgoing pid "FMP handshake timeout"
  | _ => n

/-- The handshake of a connection has settled. -/
def handshakeDone (S : Suite) (cfg : NodeConfig) (env : NodeEnv) (c : ConnectId) (n : FipsNode) : FipsNode :=
  match (n.connects.get c).stage with
  | .waiting pid hid _ =>
    match (n.handshakes.get hid).promise with
    | .pending => n
    | .resolved => (n.clearOutgoing pid).setConnectStage c .settled
    | .rejected _ => n.connectFailed S cfg env c pid
  | _ => n

/-- The `finally` of `connectKnownPeer`. -/
def connectCleared (c : ConnectId) (n : FipsNode) : FipsNode :=
  let key := transportAddressKey (n.connects.get c).addr
  if (n.connects.get c).stage = .settled ∧ n.pendingPeerConnects.get key = some c then
    { n with pendingPeerConnects := n.pendingPeerConnects.delete key }
  else n

/-! ### Peers in use -/

/-- Closes the draining links of a peer. -/
def closeDraining (pid : PeerId) (n : FipsNode) : FipsNode :=
  (n.peer pid).drainingResponderLinks.foldl (fun n e => n.closeLink e.2.link) n

/-- `onTransportConn` for a connection that is gone. -/
def transportDown (S : Suite) (cfg : NodeConfig) (env : NodeEnv) (addr : TransportAddress) (n : FipsNode) : FipsNode :=
  match n.peers.get (transportAddressKey addr) with
  | none => n
  | some pid =>
    let wasConnected := n.linkState pid = .established ∧ (n.peer pid).outgoingHandshake.isNone
    let n := (n.rejectOutgoing pid "FMP transport disconnected").closeLink (n.peer pid).link
    let n := (n.discardPending pid).closeDraining pid
    let n := n.removePeerPath S cfg env (transportAddressKey addr) pid true
    if wasConnected then n.emitPeer cfg pid false else n

/-- The endpoints that a link message names. -/
def assertEndpoints (S : Suite) (msgType : Nat) (payload : Bytes) : NM Unit := do
  let admission := (← get).admission
  if admission.hasBlockedPeers ∧ msgType = LinkMessageType.SessionDatagram then
    let datagram ← lift (decodeSessionDatagramPayload payload)
    lift (admission.assertNode S datagram.srcAddr)
    lift (admission.assertNode S datagram.destAddr)
  else if admission.hasBlockedPeers ∧ msgType = LinkMessageType.LookupRequest then
    let request ← lift (decodeLookupRequest payload)
    lift (admission.assertNode S request.target)
    lift (admission.assertNode S request.origin)

/-- Seals a message under the current link of a peer and sends it. -/
def sealAndSend (S : Suite) (env : NodeEnv) (pid : PeerId) (msgType : Nat) (payload : Bytes) : NM Unit := do
  let p := (← get).peer pid
  let frame ← onLink p.link (FmpLink.encryptOutgoing S payload msgType env.nowMs)
  modify fun n => n.record (.send p.remoteAddr frame (p.pubkey :: (n.link p.link).remotePubkey.toList)
    (some (msgType, payload)))

def sendLinkMessage (S : Suite) (env : NodeEnv) (pid : PeerId) (msgType : Nat) (payload : Bytes) : NM Unit := do
  assertPeerAllowed ((← get).peer pid).pubkey
  assertEndpoints S msgType payload
  sealAndSend S env pid msgType payload

/-- The heartbeat of one peer. -/
def sendHeartbeat (S : Suite) (env : NodeEnv) (pid : PeerId) : NM Unit := do
  assertPeerAllowed ((← get).peer pid).pubkey
  sealAndSend S env pid LinkMessageType.Heartbeat []

/-- `sendHeartbeats`, after the refresh of the client role. -/
def sendHeartbeats (S : Suite) (env : NodeEnv) (n : FipsNode) : FipsNode :=
  let n := n.values.foldl (fun n pid => n.pruneDrainingResponderLinks pid env.dateMs) n
  (n.values.filter fun pid => n.linkState pid = .established).foldl (fun n pid => after (sendHeartbeat S env pid) n) n

/-! ### Starting and stopping -/

/-- `startTransports`, before it starts a transport. -/
def beginStart (n : FipsNode) : FipsNode :=
  { n with
    startupEpoch := if n.hasStarted then leBytes 8 (leNat n.startupEpoch + 1) else n.startupEpoch
    discoveryGeneration := n.discoveryGeneration + 1
    transportGeneration := n.discoveryGeneration + 1
    lifecycle := .running }

/-- The end of a start, with or without success. -/
def endStart (ok : Bool) (n : FipsNode) : FipsNode :=
  if ok then { n with hasStarted := true }
  else { n with discoveryGeneration := n.discoveryGeneration + 1, lifecycle := .idle }

/-- `packetProcessor.clear`; the reassembler is left to `env`. -/
def clearProcessor (n : FipsNode) : FipsNode := { n.clearPending with remoteEpochHistory := [] }

/-- `stopTransports`, before its departures. -/
def beginStop (S : Suite) (cfg : NodeConfig) (n : FipsNode) : FipsNode :=
  let n : FipsNode := { n with discoveryGeneration := n.discoveryGeneration + 1, lifecycle := .stopping }.clearProcessor
  n.withManager cfg (n.sessionManager.step S (n.managerConfig S cfg) .stop)

/-- One peer of the loop that closes the links. -/
def closePeer (n : FipsNode) (pid : PeerId) : FipsNode :=
  let n := (n.rejectOutgoing pid "FIPS node stopped").closeLink (n.peer pid).link
  let n := (n.peer pid).pendingResponderLink.elim n n.closeLink
  n.closeDraining pid

def closePeers (n : FipsNode) : FipsNode := n.values.foldl closePeer { n with lifecycle := .closing }

/-- The end of a stop. -/
def forgetPeers (n : FipsNode) : FipsNode :=
  { n with peers := [], peersByPubkey := [], peersByNodeAddr := [], pendingPeerConnects := [], lifecycle := .idle }

/-- A node that has just been made. -/
def new (startupEpoch : Bytes) (nextFmpSessionIdx : Nat) (admission : PeerAdmission) : FipsNode where
  links := Heap.empty
  objs := Heap.empty
  handshakes := Heap.empty
  peers := []
  peersByPubkey := []
  peersByNodeAddr := []
  pendingResponders := []
  remoteEpochHistory := []
  connects := Heap.empty
  pendingPeerConnects := []
  nextFmpSessionIdx
  pendingReports := []
  sessionManager := Manager.init
  startupEpoch
  admission
  discoveryGeneration := 0
  transportGeneration := 0
  lifecycle := .idle
  hasStarted := false
  log := []

/-! ### Steps -/

inductive Action
  /-- A transport that runs hands a packet to the node. -/
  | packet (transport : TransportId) (remoteAddr : TransportAddress) (data : Bytes)
  | confirmationSent (handshake : HandshakeId) (error : Option String)
  | reportSent (link : LinkId)
  | pendingTimeout (pid : PeerId) (lid : LinkId)
  | connectKnownPeer (transport : TransportId) (addr : TransportAddress) (remotePubkey : Bytes)
  | connected (c : ConnectId) (ok : Bool)
  | msg1Sent (c : ConnectId) (ok : Bool)
  | resendMsg1 (c : ConnectId)
  | handshakeTimeout (c : ConnectId)
  | handshakeDone (c : ConnectId)
  | connectCleared (c : ConnectId)
  /-- A transport that runs has lost a connection. -/
  | transportDown (addr : TransportAddress)
  | sendLinkMessage (pid : PeerId) (msgType : Nat) (payload : Bytes)
  | sendHeartbeats
  | setBlockedPeerPubkeys (next : PeerAdmission)
  /-- A stretch of the session manager. -/
  | session (e : Manager.ManagerEvent)
  | beginStart
  | endStart (ok : Bool)
  | beginStop
  | closePeers
  | forgetPeers

def step (S : Suite) (cfg : NodeConfig) (n : FipsNode) (ea : NodeEnv × Action) : FipsNode :=
  let env := ea.1
  match ea.2 with
  | .packet transport remoteAddr data =>
    if n.transportGeneration = n.discoveryGeneration then
      after (PacketProcessor.process S cfg env transport remoteAddr data) n
    else n
  | .confirmationSent handshake error => PacketProcessor.confirmationSent S cfg env handshake error n
  | .reportSent link => { n with pendingReports := n.pendingReports.filter (· ≠ link) }
  | .pendingTimeout pid lid => n.pendingTimeout S cfg env pid lid
  | .connectKnownPeer transport addr remotePubkey => after (FipsNode.connectKnownPeer transport addr remotePubkey) n
  | .connected c ok => n.connected S cfg env c ok
  | .msg1Sent c ok => n.msg1Sent S cfg env c ok
  | .resendMsg1 c => n.resendMsg1 c
  | .handshakeTimeout c => n.handshakeTimeout c
  | .handshakeDone c => n.handshakeDone S cfg env c
  | .connectCleared c => n.connectCleared c
  | .transportDown addr =>
    if n.transportGeneration = n.discoveryGeneration then n.transportDown S cfg env addr else n
  | .sendLinkMessage pid msgType payload => after (FipsNode.sendLinkMessage S env pid msgType payload) n
  | .sendHeartbeats => n.sendHeartbeats S env
  | .setBlockedPeerPubkeys next => n.setBlockedPeerPubkeys next
  | .session e => n.withManager cfg (n.sessionManager.step S (n.managerConfig S cfg) e)
  | .beginStart => n.beginStart
  | .endStart ok => n.endStart ok
  | .beginStop => n.beginStop S cfg
  | .closePeers => n.closePeers
  | .forgetPeers => n.forgetPeers

end FipsNode

end Fips
