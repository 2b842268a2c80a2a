import Fips.Crypto.Toy
import Fips.Lib.JsMap
import Fips.Lib.Run
import Fips.Node.Session

/-!
# `node/FspSessionManager.ts`: the session manager

`Session` objects live on a heap (`objs`, never reused) and the map `sessions` holds the one stored per
remote node, so that a call or a queue drain can go on with a session that has since been replaced. An
`async` method is cut at its awaits: each event of `ManagerEvent` is one synchronous stretch, with what
it reads from the outside as arguments. A resend of a SessionSetup is a duplicate of the frame already
sent, which the network may make anyway; the recovery of a missing session acts on the manager only
through `ensureSession`.
-/

namespace Fips
open Exec Session

inductive PromiseState
  | pending
  | resolved
  | rejected (error : String)
deriving DecidableEq

/-- An `ensureSession` call that awaits the setup of a session for `node`. -/
structure SetupCall where
  node : NodeAddr
  promise : Nat
deriving DecidableEq

structure Manager where
  sessions : JsMap NodeAddr Nat
  objs : List Session
  /-- The identity of the next `FspSession` object. -/
  nextOid : Nat
  promises : List PromiseState
  calls : List SetupCall
  /-- Early records taken from a session's queue and not yet processed. -/
  drains : List (Nat × List EarlyRecord)
  log : List Effect

namespace Manager

def init : Manager := ⟨[], [], 0, [], [], [], []⟩

/-- The stored session of a node, with its object id. -/
def lookup (m : Manager) (node : NodeAddr) : Option (Nat × Session) := do
  let sid ← m.sessions.get node
  let s ← m.objs[sid]?
  return (sid, s)

def setObj (sid : Nat) (s : Session) (m : Manager) : Manager := { m with objs := m.objs.set sid s }

abbrev MM := EStateM String Manager

def emit (e : Effect) : MM Unit := modify fun m => { m with log := m.log ++ [e] }

/-- An operation on the session object `sid`, whose current value is `s`. -/
def onSession {α : Type} (sid : Nat) (s : Session) (x : SM α) : MM α :=
  zoom (fun m => ⟨s, m.log⟩) (fun c m => { m.setObj sid c.session with log := c.log }) x

/-! ### Setup promises -/

/-- The promise of `waitForSessionSetup`: the one in progress, or a new one. -/
def waitForSessionSetup (sid : Nat) (s : Session) (m : Manager) : Nat × Manager :=
  match s.setupPromise with
  | some p => (p, m)
  | none => (m.promises.length, { m.setObj sid { s with setupPromise := some m.promises.length } with
      promises := m.promises ++ [.pending] })

/-- Settles the promise of a session, if it has one, and clears its setup state. -/
def settleSetup (sid : Nat) (s : Session) (outcome : PromiseState) (m : Manager) : Manager :=
  match s.setupPromise with
  | some p => { m.setObj sid { s with setupPromise := none } with promises := m.promises.set p outcome }
  | none => m

def resolveSessionSetup (sid : Nat) (s : Session) (m : Manager) : Manager := m.settleSetup sid s .resolved

/-- A session that is still the stored one is closed and removed. -/
def rejectSessionSetup (sid : Nat) (s : Session) (error : String) (m : Manager) : Manager :=
  let m := m.settleSetup sid s (.rejected error)
  if m.sessions.get s.remoteNodeAddr = some sid then
    { m.setObj sid { s.close with setupPromise := none } with
      sessions := m.sessions.delete s.remoteNodeAddr
      log := m.log ++ [.session (s.eventName s.remoteNodeAddr) .closed false] }
  else m

/-! ### Handshake frames -/

/-- A fresh responder and its answer to a SessionSetup. -/
def respond (S : Suite) (cfg : ManagerConfig) (env : Env) (srcNodeAddr : NodeAddr) (frame : Bytes) (oid : Nat) :
    Except String (Bytes × FspSession) := do
  let fsp ← FspSession.new S oid cfg.identity .responder none none cfg.localEpoch cfg.strictClient
  call (FspSession.handleSessionSetup S frame env.random env.coords (some srcNodeAddr)) fsp

/-- A new session replaces whatever was stored for the node. -/
def firstContact (S : Suite) (cfg : ManagerConfig) (env : Env) (srcNodeAddr : NodeAddr) (frame : Bytes) :
    MM (Option Bytes) := do
  let m ← get
  let (reply, fsp) ← lift (respond S cfg env srcNodeAddr frame m.nextOid)
  set { m with
    objs := m.objs ++ [Session.new srcNodeAddr none fsp]
    sessions := m.sessions.set srcNodeAddr m.objs.length
    nextOid := m.nextOid + 1
    log := m.log ++ [Effect.session srcNodeAddr .establishing false] }
  return some reply

/-- The answer to a SessionSetup, or `none` when the local initiator wins a simultaneous open. -/
def setupReply (S : Suite) (cfg : ManagerConfig) (env : Env) (srcNodeAddr : NodeAddr) (frame : Bytes) :
    MM (Option Bytes) := do
  let m ← get
  match m.lookup srcNodeAddr with
  | some (sid, s) =>
    match s.pendingResponderFsp.filter (·.matchesSessionSetup frame) with
    | some pending =>
      return some (← onSession sid s
        (onPending pending (FspSession.handleSessionSetup S frame env.random env.coords (some srcNodeAddr))))
    | none =>
    if s.fsp.matchesSessionSetup frame then
      return some (← onSession sid s
        (onFsp (FspSession.handleSessionSetup S frame env.random env.coords (some srcNodeAddr))))
    else if s.fsp.state = .established then
      let (reply, pending) ← lift (respond S cfg env srcNodeAddr frame m.nextOid)
      -- the pending responder it replaces is closed and forgotten
      set { m.setObj sid { s with pendingResponderFsp := some pending } with nextOid := m.nextOid + 1 }
      return some reply
    else if s.fsp.state = .handshaking ∧ s.fsp.role = .initiator then
      match ← lift (compareNodeAddr cfg.identity.nodeAddr srcNodeAddr) with
      | .lt => return none
      | .eq => throw "simultaneous FSP handshake with local identity"
      | .gt =>
        -- the local initiator is closed before the SessionSetup is parsed
        set (m.setObj sid { s with fsp := s.fsp.close })
        let (reply, responder) ← lift (respond S cfg env srcNodeAddr frame m.nextOid)
        set { m.setObj sid { s with fsp := responder } with nextOid := m.nextOid + 1 }
        return some reply
    else firstContact S cfg env srcNodeAddr frame
  | none => firstContact S cfg env srcNodeAddr frame

def handleSessionSetup (S : Suite) (cfg : ManagerConfig) (env : Env) (peer : PeerId) (srcNodeAddr : NodeAddr)
    (frame : Bytes) : MM Unit := do
  match ← setupReply S cfg env srcNodeAddr frame with
  | some reply => emit (.reply srcNodeAddr reply peer)
  | none => pure ()

def handleSessionAck (S : Suite) (env : Env) (srcNodeAddr : NodeAddr) (sid : Nat) (s : Session) (frame : Bytes) :
    MM Unit := do
  let reply ← onSession sid s (onFsp (FspSession.handleSessionAck S frame env.random env.nowMs))
  if s.fsp.state ≠ .established then
    emit (.session (s.eventName srcNodeAddr) .established false)
    modify fun m => (m.objs[sid]?.map fun s => m.resolveSessionSetup sid s).getD m
  emit (.send srcNodeAddr reply)

/-- What an authenticated responder must satisfy: an admitted key, of the claimed source, that is the
session's own if it has one. -/
def admitRemote (S : Suite) (cfg : ManagerConfig) (srcNodeAddr : NodeAddr) (s : Session) (remotePubkey : Bytes) :
    Except String Unit := do
  cfg.assertPeerAllowed remotePubkey
  if (← deriveNodeAddr S remotePubkey) ≠ srcNodeAddr then
    throw "FSP msg3 authenticated key does not match claimed source NodeAddr"
  match s.remotePubkey with
  | some known =>
    if !sameCompressedIdentity known remotePubkey then
      throw "FSP rekey changed the authenticated remote identity"
  | none => pure ()

/-- Did the pending responder authenticate another process of the remote? -/
def remoteRestarted (s : Session) (handshakeFsp : FspSession) : Bool :=
  match s.fsp.remoteEpoch, handshakeFsp.remoteEpoch with
  | some old, some new => old ≠ new
  | _, _ => false

/-- The session once its handshake responder has been admitted. -/
def completeResponder (env : Env) (s : Session) : Session :=
  match s.pendingResponderFsp with
  | none => s.withRemote s.fsp.remotePubkey
  | some pending =>
    let s' := s.withRemote pending.remotePubkey
    if remoteRestarted s pending then s'.replaceRestartedSession pending
    else s'.promotePendingSession pending (!s.currentKBit) env.dateMs

/-- The session object `sid` once its responder has been admitted: its waiters are resolved and its queue is
drained from here on. -/
def completed (env : Env) (sid : Nat) (s : Session) (m : Manager) : Manager :=
  let s' := completeResponder env s
  let s'' := { s' with earlyEstablishedRecords := [], earlyEstablishedBytes := 0 }
  { m.setObj sid s'' with drains := m.drains ++ [(sid, s'.earlyEstablishedRecords)] }.resolveSessionSetup sid s''

/-- The admission of the responder `handshakeFsp` that has read its SessionMsg3. -/
def admitResponder (S : Suite) (cfg : ManagerConfig) (srcNodeAddr : NodeAddr) (s : Session)
    (handshakeFsp : FspSession) : Except String Unit :=
  match handshakeFsp.remotePubkey with
  | some remotePubkey => admitRemote S cfg srcNodeAddr s remotePubkey
  | none => .ok ()

/-- `handleSessionMsg3` once the SessionMsg3 has been read: the responder is admitted or closed. -/
def finishSessionMsg3 (S : Suite) (cfg : ManagerConfig) (env : Env) (peer : PeerId) (srcNodeAddr : NodeAddr)
    (sid : Nat) (s : Session) : MM Unit := do
  let m ← get
  let handshakeFsp := s.pendingResponderFsp.getD s.fsp
  match admitResponder S cfg srcNodeAddr s handshakeFsp with
  | .error e =>
    match s.pendingResponderFsp with
    | some _ => set (m.setObj sid { s with pendingResponderFsp := none })
    | none => set { m.setObj sid { s with fsp := s.fsp.close } with sessions := m.sessions.delete srcNodeAddr }
    throw e
  | .ok () =>
    let restarted := s.pendingResponderFsp.isSome && remoteRestarted s handshakeFsp
    set (m.completed env sid s)
    emit (.reverseRoute srcNodeAddr peer)
    emit (.session ((completeResponder env s).eventName srcNodeAddr) .established restarted)

def handleSessionMsg3 (S : Suite) (cfg : ManagerConfig) (env : Env) (peer : PeerId) (srcNodeAddr : NodeAddr)
    (sid : Nat) (s : Session) (frame : Bytes) : MM Unit := do
  match s.pendingResponderFsp with
  | some pending =>
    onSession sid s (onPending pending (FspSession.handleSessionMsg3 S frame env.nowMs))
  | none => onSession sid s (onFsp (FspSession.handleSessionMsg3 S frame env.nowMs))
  match (← get).objs[sid]? with
  | none => pure ()
  | some s => finishSessionMsg3 S cfg env peer srcNodeAddr sid s

def handleFromPeer (S : Suite) (cfg : ManagerConfig) (env : Env) (peer : PeerId) (srcNodeAddr : NodeAddr)
    (frame : Bytes) : MM Unit := do
  lift (cfg.assertNodeAllowed srcNodeAddr)
  let phase ← lift (peekFspPhase frame)
  let m ← get
  if phase = FSP_PHASE_ESTABLISHED then
    match m.lookup srcNodeAddr with
    | none =>
      let _ ← lift (decodeFspEstablished frame)
    | some (sid, s) => onSession sid s (Session.handleEstablished S cfg env peer srcNodeAddr frame)
  else if phase = FSP_PHASE_MSG1 then handleSessionSetup S cfg env peer srcNodeAddr frame
  else if phase = FSP_PHASE_MSG2 then
    match m.lookup srcNodeAddr with
    | none => throw s!"FSP msg2 with no session {toHex srcNodeAddr}"
    | some (sid, s) => handleSessionAck S env srcNodeAddr sid s frame
  else if phase = FSP_PHASE_MSG3 then
    match m.lookup srcNodeAddr with
    | none => throw s!"FSP msg3 with no session {toHex srcNodeAddr}"
    | some (sid, s) => handleSessionMsg3 S cfg env peer srcNodeAddr sid s frame
  else throw s!"unknown FSP phase {phase}"

/-- The next record of a drain; a record that fails does not stop the others. -/
def drainRecord (S : Suite) (cfg : ManagerConfig) (env : Env) (i : Nat) (m : Manager) : Manager :=
  match m.drains[i]? with
  | some (sid, record :: rest) =>
    let m := { m with drains := m.drains.set i (sid, rest) }
    match m.objs[sid]? with
    | some s => after (onSession sid s (Session.handleEstablished S cfg env record.peer s.remoteNodeAddr record.frame)) m
    | none => m
  | _ => m

/-! ### Local calls -/

/-- The call joins the setup of the stored session. -/
def awaitSetup (node : NodeAddr) (sid : Nat) (s : Session) : MM Unit := do
  let (p, m) := (← get).waitForSessionSetup sid s
  set { m with calls := m.calls ++ [SetupCall.mk node p] }

/-- A new initiator session and its SessionSetup. -/
def initiate (S : Suite) (cfg : ManagerConfig) (env : Env) (remotePubkey : Bytes) (node : NodeAddr) : MM Unit := do
  let m ← get
  let fsp ← lift (FspSession.new S m.nextOid cfg.identity .initiator (some remotePubkey) none cfg.localEpoch
    cfg.strictClient)
  let sid := m.objs.length
  let s := { Session.new node (some remotePubkey) fsp with setupPromise := some m.promises.length }
  set { m with
    objs := m.objs ++ [s]
    sessions := m.sessions.set node sid
    nextOid := m.nextOid + 1
    promises := m.promises ++ [PromiseState.pending]
    log := m.log ++ [Effect.session remotePubkey .establishing false] }
  let setup ← onSession sid s
    (onFsp (FspSession.buildSessionSetup S env.random env.coords (env.destCoords.getD [node])))
  modify fun m' => { m' with calls := m'.calls ++ [⟨node, m.promises.length⟩] }
  emit (.send node setup)

/-- What `ensureSession` does with the session stored for the node, which it looks up once more when it
has a route. -/
def openSession (S : Suite) (cfg : ManagerConfig) (env : Env) (remotePubkey : Bytes) (node : NodeAddr) : MM Unit := do
  match (← get).lookup node with
  | some (sid, s) =>
    match s.fsp.state with
    | .established => return
    | .handshaking => awaitSetup node sid s
    | _ => initiate S cfg env remotePubkey node
  | none => initiate S cfg env remotePubkey node

/-- `ensureSession` when a route is known. -/
def ensureSession (S : Suite) (cfg : ManagerConfig) (env : Env) (remotePubkey : Bytes) : MM Unit := do
  lift (cfg.assertPeerAllowed remotePubkey)
  openSession S cfg env remotePubkey (← lift (deriveNodeAddr S remotePubkey))

/-- `ensureSession` after its wait for a route; the policy has been asked before the wait. -/
def routeResolved (S : Suite) (cfg : ManagerConfig) (env : Env) (remotePubkey : Bytes) : MM Unit := do
  openSession S cfg env remotePubkey (← lift (deriveNodeAddr S remotePubkey))

/-- The SessionSetup of session `sid` could not be sent. -/
def setupSendFailed (sid : Nat) (error : String) (m : Manager) : Manager :=
  match m.objs[sid]? with
  | some s =>
    if m.sessions.get s.remoteNodeAddr = some sid ∧ s.fsp.state ≠ .established then m.rejectSessionSetup sid s error
    else m
  | none => m

/-- The setup timer of session `sid` fires. -/
def setupTimeout (sid : Nat) (m : Manager) : Manager :=
  match m.objs[sid]? with
  | some s => if s.setupPromise.isSome then m.rejectSessionSetup sid s "FSP handshake timeout" else m
  | none => m

/-- Closes one stored session on behalf of `closePeerSessions` and `stop`. -/
def dropSession (error : String) (announce : Bool) (m : Manager) (entry : NodeAddr × Nat) : Manager :=
  match m.objs[entry.2]? with
  | none => m
  | some s =>
    if s.setupPromise.isSome then m.rejectSessionSetup entry.2 s error
    else
      { m.setObj entry.2 s.close with
        sessions := m.sessions.delete entry.1
        log := if announce then m.log ++ [.session (s.eventName entry.1) .closed false] else m.log }

def closePeerSessions (remotePubkey : Bytes) (m : Manager) : Manager :=
  (m.sessions.filter fun entry => (m.objs[entry.2]?.bind Session.remotePubkey) = some remotePubkey).foldl
    (dropSession "remote FIPS peer restarted" true) m

def stop (m : Manager) : Manager :=
  { m.sessions.foldl (dropSession "FSP session manager stopped" false) m with sessions := [] }

inductive ManagerEvent
  | ensureSession (env : Env) (remotePubkey : Bytes)
  | routeResolved (env : Env) (remotePubkey : Bytes)
  | setupSendFailed (sid : Nat) (error : String)
  | setupTimeout (sid : Nat)
  | fromPeer (env : Env) (peer : PeerId) (srcNodeAddr : NodeAddr) (frame : Bytes)
  | drain (env : Env) (i : Nat)
  | send (env : Env) (route : Route) (sid msgType : Nat) (payload : Bytes)
  | receiverReport (env : Env) (route : Route) (sid : Nat)
  | closePeerSessions (remotePubkey : Bytes)
  | stop

/-- One stretch of the manager's code; what it throws goes to its caller. -/
def step (S : Suite) (cfg : ManagerConfig) (m : Manager) : ManagerEvent → Manager
  | .ensureSession env remotePubkey => after (ensureSession S cfg env remotePubkey) m
  | .routeResolved env remotePubkey => after (routeResolved S cfg env remotePubkey) m
  | .setupSendFailed sid error => m.setupSendFailed sid error
  | .setupTimeout sid => m.setupTimeout sid
  | .fromPeer env peer srcNodeAddr frame => after (handleFromPeer S cfg env peer srcNodeAddr frame) m
  | .drain env i => m.drainRecord S cfg env i
  | .send env route sid msgType payload =>
    match m.objs[sid]? with
    | some s => after (onSession sid s (sendSessionMessage S cfg env route msgType payload)) m
    | none => m
  | .receiverReport env route sid =>
    match m.objs[sid]? with
    | some s => after (onSession sid s (sendReceiverReport S cfg env route)) m
    | none => m
  | .closePeerSessions remotePubkey => m.closePeerSessions remotePubkey
  | .stop => m.stop

/-- The frame an effect hands to the routing layer for `dest`. -/
def frameTo (dest : NodeAddr) : Effect → Option Bytes
  | .send d frame => if d = dest then some frame else none
  | .reply d frame _ => if d = dest then some frame else none
  | _ => none

/-- The frames handed to the routing layer for `dest`, oldest first. -/
def framesTo (dest : NodeAddr) (m : Manager) : List Bytes := m.log.filterMap (frameTo dest)

end Manager

/-! ### A manager to run -/

/-- The manager of a toy identity, open to every peer. -/
def toyConfig (n : UInt8) : ManagerConfig where
  identity := toyIdentity n
  localEpoch := List.replicate 8 n
  strictClient := false
  assertPeerAllowed _ := .ok ()
  assertNodeAllowed _ := .ok ()
  services := []
  traversalAnswer _ _ := none

/-- An environment whose random bytes and coordinates repeat `n`. -/
def toyEnv (n : UInt8) : Env := ⟨List.replicate 32 n, 0, 0, [List.replicate 16 n], none⟩

namespace Manager

/-- What the toy manager `n` has sent to the toy node `k` after the events, the `i`-th frame of it. -/
def toyFrame (n k : UInt8) (i : Nat) (es : List ManagerEvent) : Bytes :=
  (((Run.run (step toySuite (toyConfig n)) init es).framesTo (toyIdentity k).nodeAddr)[i]?).getD []

/-- The toy manager `n` receives a frame that claims to come from the toy node `k`. -/
def toyReceive (n k : UInt8) (frame : Bytes) : ManagerEvent := .fromPeer (toyEnv n) 0 (toyIdentity k).nodeAddr frame

/-- The toy manager `n` opens a session with the toy node `k`. -/
def toyEnsure (n k : UInt8) : ManagerEvent := .ensureSession (toyEnv n) (toyIdentity k).publicKey

/-- The SessionSetup of `n` to `k`, and the SessionAck and SessionMsg3 that follow it. -/
def toySetup (n k : UInt8) : Bytes := toyFrame n k 0 [toyEnsure n k]

def toyAck (n k : UInt8) : Bytes := toyFrame k n 0 [toyReceive k n (toySetup n k)]

def toyMsg3 (n k : UInt8) : Bytes := toyFrame n k 1 [toyEnsure n k, toyReceive n k (toyAck n k)]

/-! #### A rekey -/

/-- The initiator has established its session. -/
def toyOpened (n k : UInt8) : List ManagerEvent := [toyEnsure n k, toyReceive n k (toyAck n k)]

/-- So has the responder `k`. -/
def toyAccepted (k n : UInt8) : List ManagerEvent := [toyReceive k n (toySetup n k), toyReceive k n (toyMsg3 n k)]

/-- The initiator loses its session and opens another one, with other random bytes. -/
def toyReopening (n k : UInt8) : List ManagerEvent :=
  [.closePeerSessions (toyIdentity k).publicKey, .ensureSession (toyEnv (n + 10)) (toyIdentity k).publicKey]

/-- The SessionSetup of the rekey, and the SessionAck and SessionMsg3 that follow it. -/
def toyResetup (n k : UInt8) : Bytes := toyFrame n k 2 (toyOpened n k ++ toyReopening n k)

def toyReack (n k : UInt8) : Bytes := toyFrame k n 1 (toyAccepted k n ++ [toyReceive k n (toyResetup n k)])

def toyRemsg3 (n k : UInt8) : Bytes :=
  toyFrame n k 3 (toyOpened n k ++ toyReopening n k ++ [toyReceive n k (toyReack n k)])

/-- The responder has taken part in the rekey. -/
def toyRekeyed (k n : UInt8) : List ManagerEvent :=
  toyAccepted k n ++ [toyReceive k n (toyResetup n k), toyReceive k n (toyRemsg3 n k)]

end Manager

end Fips
