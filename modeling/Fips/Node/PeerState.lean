import Fips.Fmp.Link
import Fips.Lib.Heap
import Fips.Node.PeerAdmission
import Fips.Node.SessionManager
import Fips.Protocol.Link

/-!
# `node/PeerState.ts`, `node/PendingFmpResponders.ts`: the peers of a node

The state of a node: heaps of links, of `AdjacentPeer` objects and of outgoing handshakes, the three maps
over the peers, and what the node keeps per remote key. Here are the operations on it that the node and its
packet processor share: removing a path, and the bounded set of responders that wait for confirmation.
Hex strings are the bytes they spell; what the routing layer does with a peer is left out.
-/

namespace Fips
open Exec

abbrev LinkId := Nat
abbrev HandshakeId := Nat

/-- A `Transport` object. -/
abbrev TransportId := Nat

structure TransportAddress where
  transport : String
  addr : String
deriving DecidableEq, Inhabited

def transportAddressKey (a : TransportAddress) : String := a.transport ++ ":" ++ a.addr

def MAX_PENDING_FMP_RESPONDERS : Nat := 64

instance : Inhabited FipsIdentity := ⟨⟨[], [], []⟩⟩

instance : Inhabited FmpLink := ⟨{
  role := .responder, localSessionIdx := 0, identity := default, localEpoch := [], remotePubkey := none,
  remoteSessionIdx := none, remoteEpoch := none, hs := none, tx := none, rx := none, establishedMsg1 := none,
  establishedMsg2 := none, txCounter := 0, sessionStartMs := 0, rxReplay := .new, receiverReports := .new,
  state := .closed }⟩

structure DrainingLink where
  link : LinkId
  expiresAtMs : ℚ
deriving DecidableEq

structure AdjacentPeer where
  /-- Empty until the remote is known. -/
  pubkey : Bytes
  remoteAddr : TransportAddress
  transport : TransportId
  link : LinkId
  pendingResponderLink : Option LinkId := none
  drainingResponderLinks : JsMap Nat DrainingLink := []
  abandonedInitiatorSessionIdx : Option Nat := none
  outgoingHandshake : Option HandshakeId := none
deriving DecidableEq, Inhabited

/-- What the closures of `confirmOutgoingHandshake` hold. -/
structure ConfirmCarrier where
  peer : PeerId
  link : LinkId
  remoteAddr : TransportAddress
  /-- The confirmation frame is being sent. -/
  sending : Bool
  confirmationSent : Bool
  confirmationReceived : Bool
deriving DecidableEq

/-- The promise of an outgoing handshake; `resolve` and `reject` settle it once. -/
structure OutgoingHandshake where
  promise : PromiseState
  confirmCarrier : Option ConfirmCarrier
deriving DecidableEq

instance : Inhabited OutgoingHandshake := ⟨⟨.pending, none⟩⟩

inductive ConnectStage
  /-- `transport.connect` is awaited. -/
  | connecting
  /-- The first Msg1 is being sent. -/
  | sendingMsg1 (peer : PeerId) (handshake : HandshakeId) (msg1 : Bytes)
  /-- `handshakeDone` is awaited; the resend and timeout timers run. -/
  | waiting (peer : PeerId) (handshake : HandshakeId) (msg1 : Bytes)
  | settled
deriving DecidableEq

/-- A `connectAdjacentPeer` call. -/
structure Connect where
  transport : TransportId
  addr : TransportAddress
  remotePubkey : Bytes
  generation : Nat
  stage : ConnectStage
deriving DecidableEq

instance : Inhabited Connect := ⟨⟨0, default, [], 0, .settled⟩⟩

/-- What the node does to the outside. -/
inductive NodeEffect
  | connect (addr : TransportAddress) (remotePubkey : Bytes)
  /-- A packet for `addr`: the public keys it is for, and the type and payload of a link message. -/
  | send (addr : TransportAddress) (packet : Bytes) (keys : List Bytes) (message : Option (Nat × Bytes))
  | peer (remotePubkey : Bytes) (addr : TransportAddress) (connected : Bool)
  | session (event : Effect)
  /-- A received link message is handed to the routing layer. -/
  | linkMessage (peer : PeerId) (link : LinkId) (msgType : Nat) (payload : Bytes)
  | peerRestart (remotePubkey : Bytes)
deriving DecidableEq

/-- The stretches of `startTransports` and `stopTransports`. -/
inductive Lifecycle
  | idle
  | running
  | stopping
  | closing
deriving DecidableEq

structure NodeConfig where
  identity : FipsIdentity
  strictClient : Bool
  services : List Nat
  traversalAnswer : (offer remotePubkey : Bytes) → Option Bytes
  identityMayChangeAtAddress : TransportId → Bool
  /-- The policy an application's listener sets on the last of these effects, if it sets one. -/
  listener : List NodeEffect → Option PeerAdmission

/-- What a stretch of the node's code reads from the outside. -/
structure NodeEnv extends Env where
  /-- `routing.hasUsableRoute`. -/
  hasUsableRoute : NodeAddr → Bool
  /-- `reassembler.ingest`: the record a fragment completes. -/
  ingest : Bytes → Option Bytes

structure FipsNode where
  links : Heap FmpLink
  objs : Heap AdjacentPeer
  handshakes : Heap OutgoingHandshake
  peers : JsMap String PeerId
  peersByPubkey : JsMap Bytes PeerId
  peersByNodeAddr : JsMap NodeAddr PeerId
  /-- The responders with a running timer. -/
  pendingResponders : JsMap PeerId LinkId
  remoteEpochHistory : JsMap Bytes (List Bytes)
  connects : Heap Connect
  pendingPeerConnects : JsMap String Nat
  nextFmpSessionIdx : Nat
  /-- The links whose ReceiverReport is being sent. -/
  pendingReports : List LinkId
  sessionManager : Manager
  startupEpoch : Bytes
  admission : PeerAdmission
  discoveryGeneration : Nat
  /-- The generation in which the running transports deliver packets. -/
  transportGeneration : Nat
  lifecycle : Lifecycle
  hasStarted : Bool
  log : List NodeEffect

abbrev NM := EStateM String FipsNode

/-- `PeerAdmission.equals`. -/
def PeerAdmission.equals (a b : PeerAdmission) : Bool :=
  a.keys.dedup.length = b.keys.dedup.length ∧ ∀ key ∈ a.keys, key ∈ b.keys

def PeerAdmission.hasBlockedPeers (a : PeerAdmission) : Bool := !a.keys.isEmpty

/-- `deriveNodeAddr` of a key that a handshake has authenticated, on which it does not throw. -/
def nodeAddrOf (S : Suite) (pubkey : Bytes) : NodeAddr := (deriveNodeAddr S pubkey).toOption.getD []

namespace FipsNode

def peer (n : FipsNode) (pid : PeerId) : AdjacentPeer := n.objs.get pid

def link (n : FipsNode) (lid : LinkId) : FmpLink := n.links.get lid

/-- `peer.link.state`. -/
def linkState (n : FipsNode) (pid : PeerId) : LinkState := (n.link (n.peer pid).link).state

/-- `peers.values()`. -/
def values (n : FipsNode) : List PeerId := n.peers.map Prod.snd

def modifyPeer (pid : PeerId) (f : AdjacentPeer → AdjacentPeer) (n : FipsNode) : FipsNode :=
  { n with objs := n.objs.modify pid f }

def modifyLink (lid : LinkId) (f : FmpLink → FmpLink) (n : FipsNode) : FipsNode :=
  { n with links := n.links.modify lid f }

def closeLink (lid : LinkId) (n : FipsNode) : FipsNode := n.modifyLink lid FmpLink.close

/-- A method of a link. -/
def onLink {α : Type} (lid : LinkId) (x : EStateM String FmpLink α) : NM α :=
  zoom (fun n => n.link lid) (fun l n => n.modifyLink lid fun _ => l) x

/-! ### Events and the policy -/

/-- The synchronous part of `setBlockedPeerPubkeys`. -/
def setBlockedPeerPubkeys (next : PeerAdmission) (n : FipsNode) : FipsNode :=
  if n.admission.equals next then n
  else { n with admission := next, discoveryGeneration := n.discoveryGeneration + 1 }

/-- Tells the application's listeners, which may change the policy at once. -/
def emit (cfg : NodeConfig) (e : NodeEffect) (n : FipsNode) : FipsNode :=
  let n := { n with log := n.log ++ [e] }
  match cfg.listener n.log with
  | some next => n.setBlockedPeerPubkeys next
  | none => n

/-- What reaches the outside without a listener. -/
def record (e : NodeEffect) (n : FipsNode) : FipsNode := { n with log := n.log ++ [e] }

def emitPeer (cfg : NodeConfig) (pid : PeerId) (connected : Bool) (n : FipsNode) : FipsNode :=
  n.emit cfg (.peer (n.peer pid).pubkey (n.peer pid).remoteAddr connected)

def assertPeerAllowed (pubkey : Bytes) : NM Unit := do lift ((← get).admission.assertPeer pubkey)

/-- The configuration of the node's session manager. -/
def managerConfig (S : Suite) (cfg : NodeConfig) (n : FipsNode) : ManagerConfig where
  identity := cfg.identity
  localEpoch := n.startupEpoch
  strictClient := cfg.strictClient
  assertPeerAllowed := n.admission.assertPeer
  assertNodeAllowed := n.admission.assertNode S
  services := cfg.services
  traversalAnswer := cfg.traversalAnswer

/-- The session manager has become `m`: its session events go to the listeners. -/
def withManager (cfg : NodeConfig) (m : Manager) (n : FipsNode) : FipsNode :=
  (m.log.drop n.sessionManager.log.length).foldl (fun n e =>
    match e with
    | .session .. => n.emit cfg (.session e)
    | _ => n) { n with sessionManager := m }

def closePeerSessions (cfg : NodeConfig) (remotePubkey : Bytes) (n : FipsNode) : FipsNode :=
  n.withManager cfg (n.sessionManager.closePeerSessions remotePubkey)

/-! ### Paths -/

/-- `rememberPeer` of the node. -/
def rememberPeer (S : Suite) (pid : PeerId) (n : FipsNode) : FipsNode :=
  if (n.peer pid).pubkey = [] then n
  else { n with
    peersByPubkey := n.peersByPubkey.set (n.peer pid).pubkey pid
    peersByNodeAddr := n.peersByNodeAddr.set (nodeAddrOf S (n.peer pid).pubkey) pid }

/-- Drops the node address entry of a peer, if it is its own. -/
def forgetNodeAddr (S : Suite) (pid : PeerId) (n : FipsNode) : FipsNode :=
  if (n.peer pid).pubkey = [] then n
  else if n.peersByNodeAddr.get (nodeAddrOf S (n.peer pid).pubkey) = some pid then
    { n with peersByNodeAddr := n.peersByNodeAddr.delete (nodeAddrOf S (n.peer pid).pubkey) }
  else n

/-- The other paths to the identity of a peer that are in use or about to be. -/
def alternates (n : FipsNode) (pid : PeerId) : List PeerId :=
  n.values.filter fun c => c ≠ pid ∧ sameCompressedIdentity (n.peer c).pubkey (n.peer pid).pubkey ∧
    (n.linkState c = .established ∨ (n.peer c).outgoingHandshake.isSome ∨ (n.peer c).pendingResponderLink.isSome)

def alternate (n : FipsNode) (pid : PeerId) : Option PeerId :=
  (n.alternates pid).find? fun c => n.linkState c = .established ∧ (n.peer c).outgoingHandshake.isNone

def removePeerPath (S : Suite) (cfg : NodeConfig) (env : NodeEnv) (key : String) (pid : PeerId)
    (closeSessionWithoutAlternate : Bool) (n : FipsNode) : FipsNode :=
  let n := { n with peers := n.peers.delete key }
  match n.alternate pid with
  | some alternate =>
    { n with peersByPubkey := n.peersByPubkey.map fun (e : Bytes × PeerId) => if e.2 = pid then (e.1, alternate) else
        e }.rememberPeer S
      alternate
  | none =>
    let n := { n with peersByPubkey := n.peersByPubkey.filter (·.2 ≠ pid) }.forgetNodeAddr S pid
    if closeSessionWithoutAlternate ∧ n.alternates pid = [] ∧
        ((n.peer pid).pubkey = [] ∨ !env.hasUsableRoute (nodeAddrOf S (n.peer pid).pubkey)) then
      n.closePeerSessions cfg (n.peer pid).pubkey
    else n

/-- The `removePeerPath` the packet processor is given. -/
def removeOwnPath (S : Suite) (cfg : NodeConfig) (env : NodeEnv) (pid : PeerId) (n : FipsNode) : FipsNode :=
  let key := transportAddressKey (n.peer pid).remoteAddr
  if n.peers.get key = some pid then n.removePeerPath S cfg env key pid true else n

/-- Closes and drops the draining links whose time is over. -/
def pruneDrainingResponderLinks (pid : PeerId) (nowMs : ℚ) (n : FipsNode) : FipsNode :=
  let expired := (n.peer pid).drainingResponderLinks.filter fun e => e.2.expiresAtMs ≤ nowMs
  (expired.foldl (fun n e => n.closeLink e.2.link) n).modifyPeer pid fun p =>
    { p with drainingResponderLinks := p.drainingResponderLinks.filter fun e => ¬ e.2.expiresAtMs ≤ nowMs }

/-! ### Responders that wait for confirmation -/

/-- `PendingFmpResponders.take`; the link taken is `(n.peer pid).pendingResponderLink`. -/
def takePending (pid : PeerId) (n : FipsNode) : FipsNode :=
  { n.modifyPeer pid fun p => { p with pendingResponderLink := none } with
    pendingResponders := n.pendingResponders.delete pid }

def discardPending (pid : PeerId) (n : FipsNode) : FipsNode :=
  match (n.peer pid).pendingResponderLink with
  | some lid => (n.takePending pid).closeLink lid
  | none => n.takePending pid

/-- `PendingFmpResponders.set`. -/
def setPending (S : Suite) (cfg : NodeConfig) (env : NodeEnv) (pid : PeerId) (lid : LinkId) : NM Unit := do
  if (← get).pendingResponders.get pid = some lid then return
  modify (discardPending pid)
  if (← get).pendingResponders.length ≥ MAX_PENDING_FMP_RESPONDERS then
    modify (closeLink lid)
    modify fun n => if (n.peer pid).link = lid then n.removeOwnPath S cfg env pid else n
    throw "too many pending FMP responders"
  modify fun n => { n.modifyPeer pid fun p => { p with pendingResponderLink := some lid } with
    pendingResponders := n.pendingResponders.set pid lid }

/-- The timer of a pending responder fires. -/
def pendingTimeout (S : Suite) (cfg : NodeConfig) (env : NodeEnv) (pid : PeerId) (lid : LinkId) (n : FipsNode) : FipsNode :=
  if n.pendingResponders.get pid = some lid then
    let n := n.discardPending pid
    if n.linkState pid ≠ .established ∧ (n.peer pid).outgoingHandshake.isNone then
      (n.closeLink (n.peer pid).link).removeOwnPath S cfg env pid
    else n
  else n

/-- `PendingFmpResponders.clear`. -/
def clearPending (n : FipsNode) : FipsNode := (n.pendingResponders.map Prod.fst).foldl (fun n pid => n.discardPending pid) n

/-! ### New links -/

/-- `(value + 1) >>> 0 || 1`. -/
def nextSessionIdx (value : Nat) : Nat := if (value + 1) % 2 ^ 32 = 0 then 1 else (value + 1) % 2 ^ 32

def allocateFmpSessionIdx : NM Nat := do
  let value := (← get).nextFmpSessionIdx
  modify fun n => { n with nextFmpSessionIdx := nextSessionIdx value }
  return value

def newLink (S : Suite) (cfg : NodeConfig) (remotePubkey : Option Bytes) (role : Role) : NM LinkId := do
  let sessionIdx ← allocateFmpSessionIdx
  let n ← get
  let l ← lift (FmpLink.new S cfg.identity remotePubkey role sessionIdx n.startupEpoch none)
  set { n with links := n.links.alloc l }
  return n.links.next

/-- Stores a new peer object under `key`; its identity is `n.objs.next`. -/
def installPeer (key : String) (p : AdjacentPeer) (n : FipsNode) : FipsNode :=
  { n with objs := n.objs.alloc p, peers := n.peers.set key n.objs.next }

/-! ### Outgoing handshakes -/

/-- Settles the promise of a handshake, unless it has been settled. -/
def settleHandshake (hid : HandshakeId) (outcome : PromiseState) (n : FipsNode) : FipsNode :=
  { n with handshakes := n.handshakes.modify hid fun h =>
      if h.promise = .pending then { h with promise := outcome } else h }

/-- `peer.outgoingHandshake?.reject(error)`. -/
def rejectOutgoing (pid : PeerId) (error : String) (n : FipsNode) : FipsNode :=
  match (n.peer pid).outgoingHandshake with
  | some hid => n.settleHandshake hid (.rejected error)
  | none => n

def clearOutgoing (pid : PeerId) (n : FipsNode) : FipsNode := n.modifyPeer pid fun p => { p with outgoingHandshake := none }

end FipsNode

end Fips
