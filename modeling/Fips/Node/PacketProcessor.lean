import Fips.Fsp.DirectTransport
import Fips.Node.PeerState

/-!
# `node/FmpTransportPacketProcessor.ts`: received packets

What a node does with a packet of an adjacent peer: a Msg1 makes or stages a responder link, a Msg2
completes an initiator link that a first frame confirms, and a frame is opened under the link its receiver
index names. The methods work on the whole node; what they throw is logged and dropped by `process`.
-/

namespace Fips
open Exec

def FMP_REPLACED_LINK_DRAIN_MS : ℚ := 10000
def FMP_REMOTE_EPOCH_HISTORY_LIMIT : Nat := 8

/-- The value of a hexadecimal digit. -/
def hexDigit (c : Char) : Option UInt8 :=
  if '0' ≤ c ∧ c ≤ '9' then some (.ofNat (c.toNat - 48))
  else if 'a' ≤ c ∧ c ≤ 'f' then some (.ofNat (c.toNat - 87))
  else if 'A' ≤ c ∧ c ≤ 'F' then some (.ofNat (c.toNat - 55))
  else none

def hexBytes : List Char → Option Bytes
  | [] => some []
  | a :: b :: cs => do return ((← hexDigit a) * 16 + (← hexDigit b)) :: (← hexBytes cs)
  | _ => none

/-- The x-only key an address of 64 hexadecimal digits spells. -/
def xOnlyAddr (addr : String) : Option Bytes := if addr.toList.length = 64 then hexBytes addr.toList else none

/-- A link that a receiver index names. -/
structure LinkMatch where
  peer : PeerId
  link : LinkId
  promotePending : Bool
deriving DecidableEq

structure PreparedMsg1 where
  peer : PeerId
  peerEpochBeforeMsg1 : Option Bytes
  replacedEstablishedInitiator : Bool
  replacedHandshake : Option HandshakeId
  stageEstablishedInitiator : Bool

structure AuthenticatedMsg1Context where
  peer : PeerId
  result : FmpHandshakeResult
  handshakeLink : LinkId
  peerEpochBeforeMsg1 : Option Bytes
  transport : TransportId
  remoteAddr : TransportAddress
  key : String
  replacedHandshake : Option HandshakeId
  wasEstablished : Bool

structure ReconciledMsg1 where
  peer : PeerId
  wasEstablished : Bool
  identityRebound : Bool

namespace PacketProcessor
open FipsNode

/-! ### Epochs of the remotes -/

def rememberRemoteEpoch (remotePubkey epoch : Bytes) (n : FipsNode) : FipsNode :=
  let history := (n.remoteEpochHistory.get remotePubkey).getD []
  if epoch ∈ history then n
  else
    let history := history ++ [epoch]
    let history := if history.length > FMP_REMOTE_EPOCH_HISTORY_LIMIT then history.tail else history
    { n with remoteEpochHistory := n.remoteEpochHistory.set remotePubkey history }

def isRetiredRemoteEpoch (remotePubkey epoch : Bytes) (n : FipsNode) : Bool :=
  epoch ∈ (n.remoteEpochHistory.get remotePubkey).getD []

/-- The epoch of another established path that is recorded under exactly this key. -/
def establishedRemoteEpoch (remotePubkey : Bytes) (excludingLink : LinkId) (n : FipsNode) : Option Bytes :=
  if remotePubkey = [] then none
  else n.values.findSome? fun c =>
    if (n.peer c).pubkey = remotePubkey ∧ (n.peer c).link ≠ excludingLink ∧ n.linkState c = .established then
      (n.link (n.peer c).link).remoteEpoch
    else none

def changedEpoch (previous candidate : Option Bytes) : Bool := previous.isSome ∧ candidate.isSome ∧ previous ≠ candidate

/-- `rememberPeer` of the processor. -/
def rememberPeer (S : Suite) (pid : PeerId) (n : FipsNode) : FipsNode :=
  if (n.peer pid).pubkey = [] then n
  else
    match (n.link (n.peer pid).link).remoteEpoch with
    | some epoch => rememberRemoteEpoch (n.peer pid).pubkey epoch (n.rememberPeer S pid)
    | none => n.rememberPeer S pid

def findXOnlyTransportPeer (transport : TransportId) (remoteAddr : TransportAddress) (n : FipsNode) : Option PeerId :=
  match xOnlyAddr remoteAddr.addr with
  | none => none
  | some xOnly => n.values.find? fun c =>
      (n.peer c).transport = transport ∧ (n.peer c).pubkey.length = 33 ∧ (n.peer c).pubkey.tail = xOnly

/-! ### Replaced links and restarted peers -/

def drainAuthenticatedLink (pid : PeerId) (lid : LinkId) (expiresAtMs : ℚ) (n : FipsNode) : FipsNode :=
  if lid = (n.peer pid).link ∨ some lid = (n.peer pid).pendingResponderLink then n
  else if (n.link lid).state ≠ .established then n.closeLink lid
  else
    let idx := (n.link lid).localSessionIdx
    match (n.peer pid).drainingResponderLinks.get idx with
    | some existing =>
      if existing.link ≠ lid then n.closeLink lid
      else n.modifyPeer pid fun p =>
        { p with drainingResponderLinks := p.drainingResponderLinks.set idx ⟨lid, expiresAtMs⟩ }
    | none => n.modifyPeer pid fun p =>
        { p with drainingResponderLinks := p.drainingResponderLinks.set idx ⟨lid, expiresAtMs⟩ }

/-- One path of a remote that has restarted. -/
def closeRestarted (cfg : NodeConfig) (preserveLink : LinkId) (preserveHandshake : Option HandshakeId) (n : FipsNode)
    (pid : PeerId) : FipsNode :=
  let p := n.peer pid
  let wasConnected := p.link ≠ preserveLink ∧ n.linkState pid = .established ∧ p.outgoingHandshake.isNone
  let n := if p.link ≠ preserveLink then n.closeLink p.link else n
  let n := n.takePending pid
  let n := (p.pendingResponderLink.filter (· ≠ preserveLink)).elim n n.closeLink
  let n := (p.drainingResponderLinks.filter (·.2.link ≠ preserveLink)).foldl (fun n e => n.closeLink e.2.link) n
  let n := if p.outgoingHandshake.isSome ∧ p.outgoingHandshake ≠ preserveHandshake then
    (n.rejectOutgoing pid "remote FIPS peer restarted").clearOutgoing pid else n
  if wasConnected then n.emitPeer cfg pid false else n

def removeRestartedPeerPaths (S : Suite) (cfg : NodeConfig) (remotePubkey : Bytes) (preserveLink : LinkId)
    (preserveHandshake : Option HandshakeId) (n : FipsNode) : FipsNode :=
  let removed := (n.values.filter fun c => (n.peer c).pubkey = remotePubkey).dedup
  let n := { n with peers := n.peers.filter fun e => (n.peer e.2).pubkey ≠ remotePubkey }
  let n := removed.foldl (closeRestarted cfg preserveLink preserveHandshake) n
  let n := { n with peersByPubkey := n.peersByPubkey.delete remotePubkey }
  let n := if removed = [] then n
    else { n with peersByNodeAddr := n.peersByNodeAddr.delete (nodeAddrOf S remotePubkey) }
  (n.closePeerSessions cfg remotePubkey).record (.peerRestart remotePubkey)

/-! ### Msg1 -/

def newResponderLink (S : Suite) (cfg : NodeConfig) : NM LinkId := newLink S cfg none .responder

def prepareMsg1Peer (S : Suite) (cfg : NodeConfig) (transport : TransportId) (remoteAddr : TransportAddress) (key : String)
    (initialPeer : Option PeerId) : NM (Option PreparedMsg1) := do
  match initialPeer with
  | some pid =>
    let n ← get
    let p := n.peer pid
    let l := n.link p.link
    let prepared : PreparedMsg1 := ⟨pid, l.remoteEpoch, false, none, l.role = .initiator⟩
    match l.role, p.outgoingHandshake with
    | .initiator, some handshake =>
      if p.pubkey = [] then throw "outbound FMP peer is missing its expected identity"
      match ← lift (do compareNodeAddr cfg.identity.nodeAddr (← deriveNodeAddr S p.pubkey)) with
      | .lt => return none
      | .eq => throw "simultaneous FMP handshake with local identity"
      | .gt => return some { prepared with
          replacedEstablishedInitiator := l.state = .established, replacedHandshake := some handshake }
    | _, _ => return some prepared
  | none =>
    let lid ← newResponderLink S cfg
    let n ← get
    set (n.installPeer key { pubkey := [], remoteAddr, transport, link := lid })
    return some ⟨n.objs.next, none, false, none, false⟩

/-- A new responder reads the Msg1 and waits for confirmation. -/
def stageNewResponder (S : Suite) (cfg : NodeConfig) (env : NodeEnv) (pid : PeerId) (packet : Bytes) :
    NM (FmpHandshakeResult × LinkId) := do
  let lid ← newResponderLink S cfg
  let result ← onLink lid (FmpLink.handleMsg1 S packet env.random env.nowMs)
  setPending S cfg env pid lid
  return (result, lid)

/-- The result, with the pending responder of the peer after it. -/
def stageResponderReplacement (S : Suite) (cfg : NodeConfig) (env : NodeEnv) (pid : PeerId) (packet : Bytes) :
    NM (FmpHandshakeResult × LinkId) := do
  match ((← get).peer pid).pendingResponderLink with
  | some lid =>
    catching (· = FmpLink.unexpectedMsg1)
      (do return (← onLink lid (FmpLink.handleMsg1 S packet env.random env.nowMs), lid))
      (do
        modify (discardPending pid)
        stageNewResponder S cfg env pid packet)
  | none => stageNewResponder S cfg env pid packet

/-- The peer's own link reads the Msg1. -/
def handleMsg1OnLink (S : Suite) (env : NodeEnv) (pid : PeerId) (packet : Bytes) : NM (FmpHandshakeResult × LinkId) := do
  let lid := ((← get).peer pid).link
  return (← onLink lid (FmpLink.handleMsg1 S packet env.random env.nowMs), lid)

/-- The link that authenticates the Msg1: a staged responder, or the peer's own link. -/
def authenticateMsg1 (S : Suite) (cfg : NodeConfig) (env : NodeEnv) (pid : PeerId) (stageEstablishedInitiator : Bool)
    (packet : Bytes) : NM (FmpHandshakeResult × LinkId) := do
  let n ← get
  if stageEstablishedInitiator ∨ ((n.peer pid).pendingResponderLink.isSome ∧ n.linkState pid ≠ .established) then
    stageResponderReplacement S cfg env pid packet
  else if n.linkState pid = .established then
    catching (· = FmpLink.unexpectedMsg1) (handleMsg1OnLink S env pid packet)
      (stageResponderReplacement S cfg env pid packet)
  else handleMsg1OnLink S env pid packet

/-- A Msg1 of a blocked identity. -/
def refuseMsg1 (S : Suite) (cfg : NodeConfig) (env : NodeEnv) (pid : PeerId) (handshakeLink : LinkId) (error : String)
    (n : FipsNode) : FipsNode :=
  let n := (n.closeLink handshakeLink).discardPending pid
  if (n.peer pid).link = handshakeLink ∨ n.linkState pid ≠ .established then
    (n.rejectOutgoing pid error).removeOwnPath S cfg env pid
  else n

/-- The link of a Msg1 that is not accepted. -/
def dropHandshakeLink (pid : PeerId) (handshakeLink : LinkId) (n : FipsNode) : FipsNode :=
  let n := n.closeLink handshakeLink
  if (n.peer pid).pendingResponderLink = some handshakeLink then n.takePending pid else n

/-- A transport address has authenticated another identity. -/
def rebindIdentity (S : Suite) (cfg : NodeConfig) (ctx : AuthenticatedMsg1Context) (n : FipsNode) : FipsNode :=
  let n := if n.linkState ctx.peer = .established then
      removeRestartedPeerPaths S cfg (n.peer ctx.peer).pubkey ctx.handshakeLink none n
    else (n.closeLink (n.peer ctx.peer).link).takePending ctx.peer
  n.installPeer ctx.key
    { pubkey := ctx.result.remotePubkey, remoteAddr := ctx.remoteAddr, transport := ctx.transport, link := ctx.handshakeLink }

/-- The remote has restarted. -/
def replaceRestarted (S : Suite) (cfg : NodeConfig) (ctx : AuthenticatedMsg1Context) (n : FipsNode) : FipsNode :=
  (removeRestartedPeerPaths S cfg ctx.result.remotePubkey ctx.handshakeLink ctx.replacedHandshake n).installPeer ctx.key
    { pubkey := ctx.result.remotePubkey, remoteAddr := ctx.remoteAddr, transport := ctx.transport, link := ctx.handshakeLink }

/-- The remote has won a simultaneous handshake: its link replaces the local initiator. -/
def adoptHandshakeLink (pid : PeerId) (handshakeLink : LinkId) (n : FipsNode) : FipsNode :=
  let old := (n.peer pid).link
  ((n.modifyPeer pid fun p =>
      { p with abandonedInitiatorSessionIdx := some (n.link old).localSessionIdx, link := handshakeLink }).closeLink
    old).takePending pid

/-- Keeps a carrier inactive while another path to its identity is in use. -/
def stageUnconfirmedCarrier (S : Suite) (cfg : NodeConfig) (env : NodeEnv) (pid : PeerId) (handshakeLink : LinkId) : NM Bool := do
  let n ← get
  if (n.peer pid).link ≠ handshakeLink then
    return n.linkState pid ≠ .established ∧ (n.peer pid).pendingResponderLink = some handshakeLink
  if (establishedRemoteEpoch (n.peer pid).pubkey handshakeLink n).isNone then return false
  setPending S cfg env pid handshakeLink
  let lid ← newResponderLink S cfg
  modify (modifyPeer pid fun p => { p with link := lid })
  return true

/-- The peer of an accepted Msg1 is indexed, unless its carrier must wait. -/
def settleMsg1 (S : Suite) (cfg : NodeConfig) (env : NodeEnv) (ctx : AuthenticatedMsg1Context) (pid : PeerId)
    (wasEstablished identityRebound : Bool) : NM ReconciledMsg1 := do
  modify (modifyPeer pid fun p => { p with pubkey := ctx.result.remotePubkey })
  let staged ← if !identityRebound ∧ ctx.replacedHandshake.isNone then
      stageUnconfirmedCarrier S cfg env pid ctx.handshakeLink
    else pure false
  if staged then return ⟨pid, true, identityRebound⟩
  modify (rememberPeer S pid)
  return ⟨pid, wasEstablished, identityRebound⟩

def reconcileAuthenticatedMsg1 (S : Suite) (cfg : NodeConfig) (env : NodeEnv) (ctx : AuthenticatedMsg1Context) :
    NM (Option ReconciledMsg1) := do
  let n ← get
  let known := (n.peer ctx.peer).pubkey
  let remotePubkey := ctx.result.remotePubkey
  match n.admission.assertPeer remotePubkey with
  | .error e =>
    set (refuseMsg1 S cfg env ctx.peer ctx.handshakeLink e n)
    throw e
  | .ok () =>
    if known ≠ [] ∧ !sameCompressedIdentity known remotePubkey then
      if !cfg.identityMayChangeAtAddress ctx.transport then
        set (dropHandshakeLink ctx.peer ctx.handshakeLink n)
        throw "fresh FMP Msg1 changed the authenticated peer identity"
      let n := rebindIdentity S cfg ctx n
      set n
      return some (← settleMsg1 S cfg env ctx (n.objs.next - 1) false true)
    else
      let previous := ctx.peerEpochBeforeMsg1.orElse fun _ => establishedRemoteEpoch remotePubkey ctx.handshakeLink n
      let candidate := (n.link ctx.handshakeLink).remoteEpoch
      let changed := changedEpoch previous candidate
      if changed ∧ isRetiredRemoteEpoch remotePubkey (candidate.getD []) n then
        set (dropHandshakeLink ctx.peer ctx.handshakeLink n)
        return none
      else if changed then
        let n := replaceRestarted S cfg ctx n
        set n
        return some (← settleMsg1 S cfg env ctx (n.objs.next - 1) false false)
      else if ctx.replacedHandshake.isSome ∧ (n.peer ctx.peer).link ≠ ctx.handshakeLink then
        set (adoptHandshakeLink ctx.peer ctx.handshakeLink n)
        return some (← settleMsg1 S cfg env ctx ctx.peer ctx.wasEstablished false)
      else return some (← settleMsg1 S cfg env ctx ctx.peer ctx.wasEstablished false)

/-- The answer to an accepted Msg1. -/
def replyMsg2 (remoteAddr : TransportAddress) (pid : PeerId) (result : FmpHandshakeResult) (n : FipsNode) : FipsNode :=
  match result.reply with
  | some reply => n.record (.send remoteAddr reply [result.remotePubkey, (n.peer pid).pubkey] none)
  | none => n

def handleMsg1 (S : Suite) (cfg : NodeConfig) (env : NodeEnv) (transport : TransportId) (remoteAddr : TransportAddress)
    (key : String) (initialPeer : Option PeerId) (packet : Bytes) : NM Unit := do
  match ← prepareMsg1Peer S cfg transport remoteAddr key initialPeer with
  | none => return
  | some prepared =>
    let wasEstablished := prepared.replacedEstablishedInitiator ∨ (← get).linkState prepared.peer = .established
    let (result, handshakeLink) ← authenticateMsg1 S cfg env prepared.peer prepared.stageEstablishedInitiator packet
    match ← reconcileAuthenticatedMsg1 S cfg env {
      peer := prepared.peer, result, handshakeLink, peerEpochBeforeMsg1 := prepared.peerEpochBeforeMsg1, transport, remoteAddr,
      key, replacedHandshake := prepared.replacedHandshake, wasEstablished } with
    | none => return
    | some reconciled =>
      modify (replyMsg2 remoteAddr reconciled.peer result)
      match prepared.replacedHandshake with
      | some handshake =>
        if !reconciled.identityRebound then
          modify fun n => (n.clearOutgoing reconciled.peer).settleHandshake handshake .resolved
      | none => pure ()
      if !reconciled.wasEstablished then modify fun n => n.emitPeer cfg reconciled.peer true

/-! ### Msg2 -/

/-- The one peer whose initiator link waits under this index. -/
def matchMsg2Peer (receiverIdx : Nat) (n : FipsNode) : Option PeerId :=
  match n.values.dedup.filter fun c => (n.peer c).outgoingHandshake.isSome ∧ (n.link (n.peer c).link).role = .initiator ∧
      (n.link (n.peer c).link).localSessionIdx = receiverIdx with
  | [c] => some c
  | _ => none

/-- The peer stored at the address of a confirmed Msg2 gives way; its links drain with the new peer. -/
def retireDisplacedMsg2Peer (S : Suite) (env : NodeEnv) (remoteAddr : TransportAddress) (pid : PeerId) (n : FipsNode) :
    FipsNode :=
  match n.peers.get (transportAddressKey remoteAddr) with
  | none => n
  | some displaced =>
    if displaced = pid then n
    else
      let p := n.peer displaced
      let expiresAtMs := env.dateMs + FMP_REPLACED_LINK_DRAIN_MS
      let n := { n with peers := n.peers.filter (·.2 ≠ displaced) }
      let n := drainAuthenticatedLink pid p.link expiresAtMs n
      let n := n.takePending displaced
      let n := p.pendingResponderLink.elim n fun lid => drainAuthenticatedLink pid lid expiresAtMs n
      let n := p.drainingResponderLinks.foldl (fun n e => drainAuthenticatedLink pid e.2.link e.2.expiresAtMs n) n
      let n := n.rejectOutgoing displaced "authenticated FMP path replaced address alias"
      let n := if n.peersByPubkey.get p.pubkey = some displaced then
        { n with peersByPubkey := n.peersByPubkey.delete p.pubkey } else n
      n.forgetNodeAddr S displaced

def rejectRetiredMsg2Peer (S : Suite) (pid : PeerId) (n : FipsNode) : FipsNode :=
  let n := n.closeLink (n.peer pid).link
  let n := { n with peers := n.peers.filter (·.2 ≠ pid) }
  let alternate := n.values.find? fun c =>
    c ≠ pid ∧ (n.peer c).pubkey = (n.peer pid).pubkey ∧ n.linkState c = .established
  let n := match alternate with
    | some alternate => rememberPeer S alternate n
    | none =>
      let n := if n.peersByPubkey.get (n.peer pid).pubkey = some pid then
        { n with peersByPubkey := n.peersByPubkey.delete (n.peer pid).pubkey } else n
      n.forgetNodeAddr S pid
  (n.rejectOutgoing pid "remote FIPS peer replied from a retired startup epoch").clearOutgoing pid

/-- `complete` of `confirmOutgoingHandshake`. -/
def complete (S : Suite) (cfg : NodeConfig) (env : NodeEnv) (handshake : HandshakeId) : NM Unit := do
  let n ← get
  match (n.handshakes.get handshake).confirmCarrier with
  | none => pure ()
  | some c =>
    let p := n.peer c.peer
    if !c.confirmationSent ∨ p.outgoingHandshake ≠ some handshake ∨ p.link ≠ c.link ∨ (n.link c.link).state ≠ .established then
      return
    lift (n.admission.assertPeer p.pubkey)
    let waits : Bool := (n.peersByPubkey.get p.pubkey).any fun current =>
      current ≠ c.peer ∧ n.linkState current = .established ∧ !c.confirmationReceived
    if waits then return
    set ((rememberPeer S c.peer (retireDisplacedMsg2Peer S env c.remoteAddr c.peer n)).emitPeer cfg c.peer true)
    modify fun n => (n.settleHandshake handshake .resolved).clearOutgoing c.peer

/-- `handshake.confirmCarrier()`. -/
def confirmCarrier (S : Suite) (cfg : NodeConfig) (env : NodeEnv) (handshake : HandshakeId) : NM Unit := do
  modify fun n => { n with handshakes := n.handshakes.modify handshake fun h =>
    { h with confirmCarrier := h.confirmCarrier.map fun c => { c with confirmationReceived := true } } }
  complete S cfg env handshake

/-- The end of `confirmOutgoingHandshake` when it fails. -/
def rejectConfirmation (handshake : HandshakeId) (error : String) (n : FipsNode) : FipsNode :=
  match (n.handshakes.get handshake).confirmCarrier with
  | some c =>
    if (n.peer c.peer).outgoingHandshake = some handshake ∧ (n.peer c.peer).link = c.link then
      n.settleHandshake handshake (.rejected error)
    else n
  | none => n

/-- Seals and sends an empty frame. -/
def sendConfirmation (S : Suite) (env : NodeEnv) (pid : PeerId) (lid : LinkId) : NM Unit := do
  let p := (← get).peer pid
  assertPeerAllowed p.pubkey
  let frame ← onLink lid (FmpLink.encryptOutgoing S [] FMP_INNER_KEEPALIVE env.nowMs)
  modify fun n => n.record (.send p.remoteAddr frame (p.pubkey :: (n.link lid).remotePubkey.toList)
    (some (FMP_INNER_KEEPALIVE, [])))

def confirmOutgoingHandshake (S : Suite) (env : NodeEnv) (pid : PeerId) (remoteAddr : TransportAddress) (n : FipsNode) :
    FipsNode :=
  match (n.peer pid).outgoingHandshake with
  | none => n
  | some handshake =>
    let lid := (n.peer pid).link
    let prepare (sending : Bool) (n : FipsNode) : FipsNode := { n with handshakes := n.handshakes.modify handshake fun h =>
      { h with confirmCarrier := some ⟨pid, lid, remoteAddr, sending, false, false⟩ } }
    match (sendConfirmation S env pid lid).run n with
    | .ok _ n => prepare true n
    | .error e n => rejectConfirmation handshake e (prepare false n)

/-- The confirmation frame has been sent, or could not be. -/
def confirmationSent (S : Suite) (cfg : NodeConfig) (env : NodeEnv) (handshake : HandshakeId) (error : Option String)
    (n : FipsNode) : FipsNode :=
  match (n.handshakes.get handshake).confirmCarrier with
  | some c =>
    if c.sending then
      let n := { n with handshakes := n.handshakes.modify handshake fun h =>
        { h with confirmCarrier := some { c with sending := false, confirmationSent := error.isNone } } }
      match error with
      | some error => rejectConfirmation handshake error n
      | none =>
        match (complete S cfg env handshake).run n with
        | .ok _ n => n
        | .error e n => rejectConfirmation handshake e n
    else n
  | none => n

/-- A Msg2 that no initiator waits for. -/
def ignoreMsg2 (addressedPeer : Option PeerId) (receiverIdx : Nat) (n : FipsNode) : FipsNode :=
  match addressedPeer with
  | some pid =>
    if (n.peer pid).abandonedInitiatorSessionIdx = some receiverIdx then
      n.modifyPeer pid fun p => { p with abandonedInitiatorSessionIdx := none }
    else n
  | none => n

/-- The remote of a Msg2 has restarted; the peer that received it stays. -/
def replaceRestartedByMsg2 (S : Suite) (cfg : NodeConfig) (pid : PeerId) (handshake : Option HandshakeId) (n : FipsNode) :
    FipsNode :=
  let n := removeRestartedPeerPaths S cfg (n.peer pid).pubkey (n.peer pid).link handshake n
  { n with peers := n.peers.set (transportAddressKey (n.peer pid).remoteAddr) pid }

def handleMsg2 (S : Suite) (cfg : NodeConfig) (env : NodeEnv) (remoteAddr : TransportAddress) (addressedPeer : Option PeerId)
    (packet : Bytes) : NM Unit := do
  let msg2 ← lift (decodeFmpMsg2 packet)
  let n ← get
  match matchMsg2Peer msg2.receiverIdx n with
  | none => set (ignoreMsg2 addressedPeer msg2.receiverIdx n)
  | some pid =>
    let lid := (n.peer pid).link
    let previous := establishedRemoteEpoch (n.peer pid).pubkey lid n
    let _ ← onLink lid (FmpLink.handleMsg2 S packet env.nowMs)
    modify fun n => n.modifyPeer pid fun p => { p with pubkey := (n.link lid).remotePubkey.getD [] }
    assertPeerAllowed ((← get).peer pid).pubkey
    let candidate := ((← get).link lid).remoteEpoch
    if changedEpoch previous candidate then
      if isRetiredRemoteEpoch ((← get).peer pid).pubkey (candidate.getD []) (← get) then
        modify (rejectRetiredMsg2Peer S pid)
        return
      modify (replaceRestartedByMsg2 S cfg pid (n.peer pid).outgoingHandshake)
    if n.linkState pid ≠ .established then modify (confirmOutgoingHandshake S env pid remoteAddr)

/-! ### Frames -/

/-- The links of one peer under a receiver index. -/
def matchPeerLinks (receiverIdx : Nat) (n : FipsNode) (pid : PeerId) : List LinkMatch :=
  let p := n.peer pid
  let named (lid : LinkId) : Bool := (n.link lid).state = .established ∧ (n.link lid).localSessionIdx = receiverIdx
  (if named p.link then [⟨pid, p.link, false⟩] else []) ++
    ((p.pendingResponderLink.filter named).map fun lid => ⟨pid, lid, true⟩).toList ++
    ((p.drainingResponderLinks.get receiverIdx).map fun d => ⟨pid, d.link, false⟩).toList

/-- One peer of the search, which first drops its expired links. -/
def matchStep (receiverIdx : Nat) (nowMs : ℚ) (acc : JsMap LinkId LinkMatch × FipsNode) (pid : PeerId) :
    JsMap LinkId LinkMatch × FipsNode :=
  let n := acc.2.pruneDrainingResponderLinks pid nowMs
  ((matchPeerLinks receiverIdx n pid).foldl (fun found x => found.set x.link x) acc.1, n)

def matchEstablishedLink (receiverIdx : Nat) (nowMs : ℚ) : NM (Option LinkMatch) := do
  let n ← get
  let (found, n) := n.values.dedup.foldl (matchStep receiverIdx nowMs) ([], n)
  set n
  if found.length > 1 then throw s!"ambiguous FMP Established receiver_idx {receiverIdx}"
  return found.head?.map Prod.snd

/-- `receiverReportFor` on a link of the heap. -/
def receiverReportFor (lid : LinkId) (senderReport : Bytes) (nowMs : ℚ) : NM (Option Bytes) := do
  let n ← get
  let (report, l) := (n.link lid).receiverReportFor senderReport nowMs
  set (n.modifyLink lid fun _ => l)
  return report

/-- `node/FmpLinkReports.ts`: opens a frame, and answers a SenderReport under the same keys. -/
def receiveFmpLinkPacket (S : Suite) (env : NodeEnv) (pid : PeerId) (lid : LinkId) (packet : Bytes) : NM (Nat × Bytes) := do
  let received ← onLink lid (FmpLink.decryptIncoming S packet env.nowMs)
  if received.1 = LinkMessageType.SenderReport ∧ lid ∉ (← get).pendingReports then
    match ← receiverReportFor lid received.2 env.nowMs with
    | some report =>
      let frame ← onLink lid (FmpLink.encryptOutgoing S report LinkMessageType.ReceiverReport env.nowMs)
      modify fun n => { n with pendingReports := n.pendingReports ++ [lid] }.record
        (.send (n.peer pid).remoteAddr frame ((n.peer pid).pubkey :: (n.link lid).remotePubkey.toList)
          (some (LinkMessageType.ReceiverReport, report)))
    | none => pure ()
  return received

/-- A frame has confirmed the pending responder. -/
def promotePendingLink (S : Suite) (cfg : NodeConfig) (env : NodeEnv) (pid : PeerId) (lid : LinkId) (n : FipsNode) : FipsNode :=
  let previous := (n.peer pid).link
  let n := (n.modifyPeer pid fun p => { p with link := lid }).takePending pid
  if (n.link previous).state = .established then
    drainAuthenticatedLink pid previous (env.dateMs + FMP_REPLACED_LINK_DRAIN_MS) n
  else (rememberPeer S pid (n.closeLink previous)).emitPeer cfg pid true

def handleEstablished (S : Suite) (cfg : NodeConfig) (env : NodeEnv) (packet : Bytes) : NM Unit := do
  let receiverIdx := (← lift (decodeFmpEstablished packet)).receiverIdx
  match ← matchEstablishedLink receiverIdx env.dateMs with
  | none => return
  | some found =>
    assertPeerAllowed ((← get).peer found.peer).pubkey
    let (msgType, payload) ← receiveFmpLinkPacket S env found.peer found.link packet
    let p := (← get).peer found.peer
    match p.outgoingHandshake with
    | some handshake => if p.link = found.link then confirmCarrier S cfg env handshake
    | none => pure ()
    if found.promotePending then modify (promotePendingLink S cfg env found.peer found.link)
    modify fun n => n.record (.linkMessage found.peer found.link msgType payload)

/-! ### Packets -/

/-- The peer that may send FSP records outside its link's frames. -/
def directPeer (peer : Option PeerId) (error : String) : NM PeerId := do
  match peer with
  | some pid =>
    let n ← get
    if n.linkState pid ≠ .established ∨ (n.peer pid).pubkey = [] then throw error
    return pid
  | none => throw error

def processDirectFsp (S : Suite) (cfg : NodeConfig) (env : NodeEnv) (peer : Option PeerId) (packet : Bytes) : NM Unit := do
  let pid ← directPeer peer "direct FSP before adjacent link handshake complete"
  let n ← get
  let src ← lift (deriveNodeAddr S (n.peer pid).pubkey)
  set (n.withManager cfg (n.sessionManager.step S (n.managerConfig S cfg) (.fromPeer env.toEnv pid src packet)))

/-- A whole packet. -/
def processPacket (S : Suite) (cfg : NodeConfig) (env : NodeEnv) (transport : TransportId) (remoteAddr : TransportAddress)
    (peer : Option PeerId) (packet : Bytes) : NM Unit := do
  if isDirectFspEstablished packet then processDirectFsp S cfg env peer packet
  else
    let phase ← lift (peekFmpPhase packet)
    if phase = FMP_PHASE_MSG1 then
      handleMsg1 S cfg env transport remoteAddr (transportAddressKey remoteAddr) peer packet
    else if phase = FMP_PHASE_MSG2 then handleMsg2 S cfg env remoteAddr peer packet
    else if phase = FMP_PHASE_ESTABLISHED then handleEstablished S cfg env packet
    else throw s!"unknown FMP phase {phase}"

/-- The peer of a transport address. -/
def addressedPeer (transport : TransportId) (remoteAddr : TransportAddress) (n : FipsNode) : Option PeerId :=
  (n.peers.get (transportAddressKey remoteAddr)).orElse fun _ => findXOnlyTransportPeer transport remoteAddr n

def process (S : Suite) (cfg : NodeConfig) (env : NodeEnv) (transport : TransportId) (remoteAddr : TransportAddress)
    (data : Bytes) : NM Unit := do
  let n ← get
  let peer := addressedPeer transport remoteAddr n
  match peer with
  | some pid => if (n.peer pid).pubkey ≠ [] then assertPeerAllowed (n.peer pid).pubkey
  | none => pure ()
  if isDirectFspTransportFragment data then
    let _ ← directPeer peer "direct FSP fragment before adjacent link handshake complete"
    match env.ingest data with
    | some packet => processPacket S cfg env transport remoteAddr peer packet
    | none => return
  else processPacket S cfg env transport remoteAddr peer data

end PacketProcessor

end Fips
