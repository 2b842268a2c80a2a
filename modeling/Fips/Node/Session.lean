import Fips.Fsp.Session

/-!
# `node/FspSessionManager.ts`: one session

The `Session` object the manager keeps per remote node and the operations that touch only it: records
received under the current, the previous or the pending keys, the queue of early records, promotion and
replacement of the key epoch, and sealing. An operation works on the session and the log of effects
(events, deliveries, frames handed to the routing layer). Hex strings are the bytes they spell.
-/

namespace Fips
open Exec

/-- An `AdjacentPeer` object. -/
abbrev PeerId := Nat

def FSP_REKEY_DRAIN_MS : ℚ := 45000
def MAX_EARLY_ESTABLISHED_RECORDS : Nat := 16
def MAX_EARLY_ESTABLISHED_BYTES : Nat := 64 * 1024
def LINK_NEGOTIATION_SERVICE_PORT : Nat := 257

structure PreviousFsp where
  fsp : FspSession
  kBit : Bool
  expiresAtMs : ℚ

structure EarlyRecord where
  peer : PeerId
  frame : Bytes
deriving DecidableEq

structure Session where
  remoteNodeAddr : NodeAddr
  remotePubkey : Option Bytes
  fsp : FspSession
  currentKBit : Bool
  pendingResponderFsp : Option FspSession
  previousFsp : Option PreviousFsp
  earlyEstablishedRecords : List EarlyRecord
  earlyEstablishedBytes : Nat
  /-- The promise of the setup in progress; its timer and resolvers are set and cleared with it. -/
  setupPromise : Option Nat
  receiverReports : Option ReceiverReports
  routeWarmup : Option (PeerId × Nat)

inductive SessionEventState
  | establishing
  | established
  | closed
deriving DecidableEq

/-- What the manager does to the outside. -/
inductive Effect
  | session (remote : Bytes) (state : SessionEventState) (restarted : Bool)
  | reverseRoute (node : NodeAddr) (peer : PeerId)
  | send (dest : NodeAddr) (frame : Bytes)
  | reply (dest : NodeAddr) (frame : Bytes) (peer : PeerId)
  | datagram (src : Bytes) (data : DataPacket)
  | service (src : Bytes) (data : DataPacket)
  | linkNegotiation (src payload : Bytes)
  | endpointData (src payload : Bytes)
  | traversalAnswer (payload : Bytes)
deriving DecidableEq

/-- `FspSessionManagerConfig`, as far as it is read here. -/
structure ManagerConfig where
  identity : FipsIdentity
  localEpoch : Bytes
  strictClient : Bool
  assertPeerAllowed : Bytes → Except String Unit
  assertNodeAllowed : NodeAddr → Except String Unit
  /-- The ports with a registered service handler. -/
  services : List Nat
  /-- `unsupportedTraversalAnswer` for an offer of the given remote key. -/
  traversalAnswer : (offer remotePubkey : Bytes) → Option Bytes

/-- What a call reads from the outside: random bytes, `performance.now()`, `Date.now()` and the routing
layer's coordinates. -/
structure Env where
  random : Bytes
  nowMs : ℚ
  dateMs : ℚ
  coords : List NodeAddr
  destCoords : Option (List NodeAddr)

structure SessionCtx where
  session : Session
  log : List Effect

/-- `toHex`. -/
def toHex (b : Bytes) : String :=
  String.join (b.map fun x => String.ofList [Nat.digitChar (x.toNat / 16), Nat.digitChar (x.toNat % 16)])

/-- `sameCompressedIdentity`: all x-only bytes agree, whatever the parity. -/
def sameCompressedIdentity (a b : Bytes) : Bool :=
  a.length = 33 ∧ b.length = 33 ∧ (a.head? = some 2 ∨ a.head? = some 3) ∧ (b.head? = some 2 ∨ b.head? = some 3) ∧
    a.tail = b.tail

namespace Session

def new (remoteNodeAddr : NodeAddr) (remotePubkey : Option Bytes) (fsp : FspSession) : Session where
  remoteNodeAddr
  remotePubkey
  fsp
  currentKBit := false
  pendingResponderFsp := none
  previousFsp := none
  earlyEstablishedRecords := []
  earlyEstablishedBytes := 0
  setupPromise := none
  receiverReports := none
  routeWarmup := none

/-- Adopts an authenticated remote key. -/
def withRemote (remotePubkey : Option Bytes) (s : Session) : Session :=
  { s with remotePubkey := remotePubkey.orElse fun _ => s.remotePubkey }

/-- The old previous epoch is closed and forgotten. -/
def promotePendingSession (receiveFsp : FspSession) (receivedKBit : Bool) (dateMs : ℚ) (s : Session) : Session :=
  { s with
    previousFsp := some ⟨s.fsp, s.currentKBit, dateMs + FSP_REKEY_DRAIN_MS⟩
    fsp := receiveFsp
    receiverReports := s.receiverReports.map ReceiverReports.resetEpoch
    currentKBit := receivedKBit
    pendingResponderFsp := none
    remotePubkey := receiveFsp.remotePubkey.orElse fun _ => s.remotePubkey }

def replaceRestartedSession (replacement : FspSession) (s : Session) : Session :=
  { s with
    fsp := replacement
    currentKBit := false
    pendingResponderFsp := none
    previousFsp := none
    receiverReports := none
    remotePubkey := replacement.remotePubkey.orElse fun _ => s.remotePubkey }

def prunePreviousFsp (dateMs : ℚ) (s : Session) : Session :=
  match s.previousFsp with
  | some previous => if previous.expiresAtMs > dateMs then s else { s with previousFsp := none }
  | none => s

/-- Closes the keys of every epoch. -/
def close (s : Session) : Session :=
  { s with
    fsp := s.fsp.close
    pendingResponderFsp := s.pendingResponderFsp.map FspSession.close
    previousFsp := s.previousFsp.map fun p => { p with fsp := p.fsp.close } }

/-- The name of the remote in events: its key if known, else its NodeAddr. -/
def eventName (s : Session) (srcNodeAddr : NodeAddr) : Bytes := s.remotePubkey.getD srcNodeAddr

abbrev SM := EStateM String SessionCtx

def emit (e : Effect) : SM Unit := modify fun c => { c with log := c.log ++ [e] }

def update (f : Session → Session) : SM Unit := modify fun c => { c with session := f c.session }

/-- A method of `session.fsp`. -/
def onFsp {α : Type} (x : EStateM String FspSession α) : SM α :=
  zoom (·.session.fsp) (fun fsp c => { c with session := { c.session with fsp } }) x

/-- A method of `session.pendingResponderFsp`. -/
def onPending {α : Type} (pending : FspSession) (x : EStateM String FspSession α) : SM α :=
  zoom (fun _ => pending) (fun fsp c => { c with session := { c.session with pendingResponderFsp := some fsp } }) x

/-- A method of `session.previousFsp.fsp`. -/
def onPrevious {α : Type} (previous : PreviousFsp) (x : EStateM String FspSession α) : SM α :=
  zoom (fun _ => previous.fsp)
    (fun fsp c => { c with session := { c.session with previousFsp := some { previous with fsp } } }) x

def queueEarlyEstablishedRecord (peer : PeerId) (frame : Bytes) (srcNodeAddr : NodeAddr) : SM Unit := do
  let _ ← lift (decodeFspEstablished frame)
  let s := (← get).session
  if s.earlyEstablishedRecords.length ≥ MAX_EARLY_ESTABLISHED_RECORDS ∨
      s.earlyEstablishedBytes + frame.length > MAX_EARLY_ESTABLISHED_BYTES then
    throw s!"early FSP Established queue full for {toHex srcNodeAddr}"
  update fun s => { s with
    earlyEstablishedRecords := s.earlyEstablishedRecords ++ [⟨peer, frame⟩]
    earlyEstablishedBytes := s.earlyEstablishedBytes + frame.length }

/-- The keys a record is tried under. -/
inductive ReceiveSlot
  | current
  | pending (fsp : FspSession)
  | previous (previous : PreviousFsp)
  /-- The pending handshake is not complete: the record waits. -/
  | queue
  | mismatch

def receiveSlot (receivedKBit : Bool) (s : Session) : ReceiveSlot :=
  if receivedKBit = s.currentKBit then .current
  else
    match s.pendingResponderFsp, s.previousFsp with
    | some pending, previous =>
      match pending.state with
      | .established => .pending pending
      | .handshaking => .queue
      | _ => (previous.filter (·.kBit = receivedKBit)).elim .mismatch .previous
    | none, previous => (previous.filter (·.kBit = receivedKBit)).elim .mismatch .previous

/-- The callback of `decryptIncoming`: `promote` with the keys that opened the record when they were the
pending ones, `currentEpoch` when they now are the session's own. -/
def onAuthenticated (srcNodeAddr : NodeAddr) (peer : PeerId) (env : Env) (promote : Session → Session)
    (currentEpoch : Bool) (received : ReceivedRecord) : SM Unit := do
  emit (.reverseRoute srcNodeAddr peer)
  update promote
  update fun s => { s with
    receiverReports := some ((s.receiverReports.getD .new).record received env.nowMs currentEpoch) }

def deliverDatagram (cfg : ManagerConfig) (src : Bytes) (data : DataPacket) : SM Unit := do
  if data.dstPort = LINK_NEGOTIATION_SERVICE_PORT then emit (.linkNegotiation src data.payload)
  else
    emit (.datagram src data)
    if data.dstPort ∈ cfg.services then emit (.service src data)

/-- What is done with the content of an authenticated record. -/
def dispatch (cfg : ManagerConfig) (srcNodeAddr : NodeAddr) (receivePubkey : Option Bytes) (result : FspReceived) :
    SM Unit := do
  let s := (← get).session
  match result.payload, receivePubkey with
  | some payload, some remotePubkey =>
    if result.msgType = FSP_MSG_TRAVERSAL_OFFER then
      lift (cfg.assertPeerAllowed remotePubkey)
      match cfg.traversalAnswer payload remotePubkey with
      | some answer => emit (.traversalAnswer answer)
      | none => pure ()
      return
  | _, _ => pure ()
  match result.data with
  | some data => if result.msgType = FSP_MSG_DATA then deliverDatagram cfg (s.eventName srcNodeAddr) data
  | none => pure ()
  match result.endpointData with
  | some payload =>
    if result.msgType = FSP_MSG_ENDPOINT_DATA then emit (.endpointData (s.eventName srcNodeAddr) payload)
  | none => pure ()

/-- Opens the record under one of the epochs, then delivers it. -/
def receiveRecord (S : Suite) (cfg : ManagerConfig) (env : Env) (peer : PeerId) (srcNodeAddr : NodeAddr)
    (frame : Bytes) (receivedKBit : Bool) (slot : ReceiveSlot) : SM Unit := do
  match slot with
  | .current =>
    let (received, inner) ← onFsp (FspSession.openRecord S frame)
    onAuthenticated srcNodeAddr peer env id true received
    dispatch cfg srcNodeAddr (← get).session.fsp.remotePubkey (← lift (FspSession.contentOf inner))
  | .pending pending =>
    let (received, inner) ← onPending pending (FspSession.openRecord S frame)
    let opened := (← get).session.pendingResponderFsp.getD pending
    onAuthenticated srcNodeAddr peer env (promotePendingSession opened receivedKBit env.dateMs) true received
    dispatch cfg srcNodeAddr opened.remotePubkey (← lift (FspSession.contentOf inner))
  | .previous previous =>
    let (received, inner) ← onPrevious previous (FspSession.openRecord S frame)
    onAuthenticated srcNodeAddr peer env id false received
    dispatch cfg srcNodeAddr previous.fsp.remotePubkey (← lift (FspSession.contentOf inner))
  | .queue => queueEarlyEstablishedRecord peer frame srcNodeAddr
  | .mismatch =>
    throw s!"FSP Established epoch mismatch: receivedK={receivedKBit.toNat} currentK={(!receivedKBit).toNat}"

def handleEstablished (S : Suite) (cfg : ManagerConfig) (env : Env) (peer : PeerId) (srcNodeAddr : NodeAddr)
    (frame : Bytes) : SM Unit := do
  match (← get).session.fsp.state with
  | .handshaking => queueEarlyEstablishedRecord peer frame srcNodeAddr
  | .established =>
    update (prunePreviousFsp env.dateMs)
    let established ← lift (decodeFspEstablished frame)
    let receivedKBit := hasFlag established.flags FSP_FLAG_K
    receiveRecord S cfg env peer srcNodeAddr frame receivedKBit ((← get).session.receiveSlot receivedKBit)
  | _ => throw s!"FSP Established before handshake from {toHex srcNodeAddr}"

/-- The route a message takes: a direct peer if there is an established one, and the next hop otherwise. -/
structure Route where
  directPeer : Bool
  nextHop : PeerId
  nextHopIsDest : Bool

def kFlag (s : Session) : Nat := if s.currentKBit then FSP_FLAG_K else 0

/-- The coordinates sent ahead of the first messages over a new next hop. -/
def sealWarmup (S : Suite) (env : Env) (route : Route) (remaining : Nat) : SM (List Bytes) := do
  match env.destCoords with
  | none => return []
  | some destCoords =>
    if remaining > 0 ∧ !route.nextHopIsDest then
      let flags := (← get).session.kFlag
      let warmup ← onFsp
        (FspSession.encryptMessage S FSP_MSG_COORDS_WARMUP [] flags (some (env.coords, destCoords)) env.nowMs)
      update fun s => { s with routeWarmup := some (route.nextHop, remaining - 1) }
      return [warmup]
    else return []

def sendSessionMessage (S : Suite) (cfg : ManagerConfig) (env : Env) (route : Route) (msgType : Nat) (payload : Bytes) :
    SM Unit := do
  let s := (← get).session
  lift (cfg.assertNodeAllowed s.remoteNodeAddr)
  if s.fsp.remoteDirectFspTransport ∧ route.directPeer then
    update fun s => { s with routeWarmup := none }
    let frame ← onFsp (FspSession.encryptMessage S msgType payload (FSP_FLAG_DIRECT_TRANSPORT ||| s.kFlag) none env.nowMs)
    emit (.send s.remoteNodeAddr frame)
  else
    let remaining := ((s.routeWarmup.filter (·.1 = route.nextHop)).map Prod.snd).getD 5
    update fun s => { s with routeWarmup := some (route.nextHop, remaining) }
    let warmup ← sealWarmup S env route remaining
    let frame ← onFsp (FspSession.encryptMessage S msgType payload s.kFlag none env.nowMs)
    modify fun c => { c with log := c.log ++ (warmup ++ [frame]).map (.send s.remoteNodeAddr) }

/-- One session's part of `sendReceiverReports`. -/
def sendReceiverReport (S : Suite) (cfg : ManagerConfig) (env : Env) (route : Route) : SM Unit := do
  let s := (← get).session
  if s.fsp.state = .established then
    match s.receiverReports with
    | none => pure ()
    | some reports =>
      let (report, reports) := reports.build env.nowMs
      update fun s => { s with receiverReports := some reports }
      match report with
      | none => pure ()
      | some report => sendSessionMessage S cfg env route FSP_MSG_RECEIVER_REPORT report

end Session

end Fips
