import Fips.Crypto.Replay
import Fips.Mmp.ReceiverReports
import Fips.Noise.Handshake
import Fips.Protocol.Session

/-!
# `fsp/session.ts`: the end-to-end session

One `FspSession` object: a Noise XK handshake in SessionSetup, SessionAck and SessionMsg3 frames, then
sealed records. `oid` is the identity of the object (the code compares sessions with `===`), `random`
the ephemeral scalar a call would draw, `nowMs` the clock it would read. `decryptIncoming` is in two
halves, since its callback runs between the authentication of a record and the decoding of its content.
-/

namespace Fips
open Exec

inductive SessionState
  | init
  | handshaking
  | established
  | closed
deriving DecidableEq

structure FspSession where
  oid : Nat
  identity : FipsIdentity
  role : Role
  remotePubkey : Option Bytes
  remoteEpoch : Option Bytes
  localEpoch : Bytes
  strictClient : Bool
  hs : Option NoiseHandshake
  tx : Option CipherState
  rx : Option CipherState
  receivedSessionSetup : Option Bytes
  sentSessionAck : Option Bytes
  receivedSessionAck : Option Bytes
  sentSessionMsg3 : Option Bytes
  establishedMsg3 : Option Bytes
  remoteDirectFspTransport : Bool
  txCounter : Nat
  sessionStartMs : ℚ
  replay : ReplayWindow
  state : SessionState

def EPOCH_LEN : Nat := 8

/-- What `decryptIncoming` returns. -/
structure FspReceived where
  msgType : Nat
  data : Option DataPacket
  endpointData : Option Bytes
  payload : Option Bytes
deriving DecidableEq

def validateEstablishedFlags (flags : Nat) : Except String Unit := do
  if flags > 0xff then throw "FSP flags must be one byte"
  if flags &&& (0xff - (FSP_FLAG_DIRECT_TRANSPORT ||| FSP_FLAG_K)) ≠ 0 then
    throw "unsupported FSP established flags"

namespace FspSession

def new (S : Suite) (oid : Nat) (identity : FipsIdentity) (role : Role) (remotePubkey ephemeralOverride : Option Bytes)
    (localEpoch : Bytes) (strictClient : Bool) : Except String FspSession := do
  if localEpoch.length ≠ EPOCH_LEN then throw "FSP local epoch must be 8 bytes"
  let hs ← NoiseHandshake.new S .XK role identity remotePubkey ephemeralOverride
  return {
    oid, identity, role, remotePubkey, remoteEpoch := none, localEpoch, strictClient, hs := some hs, tx := none,
    rx := none, receivedSessionSetup := none, sentSessionAck := none, receivedSessionAck := none,
    sentSessionMsg3 := none, establishedMsg3 := none, remoteDirectFspTransport := false, txCounter := 0,
    sessionStartMs := 0, replay := .new, state := .init }

/-- `if (!this.hs) throw ...`. -/
def requireHs : EStateM String FspSession Unit := do
  if (← get).hs.isNone then throw "noise handshake state missing"

/-- Runs a Noise method on `this.hs`. -/
def onHs {α : Type} (x : EStateM String NoiseHandshake α) : EStateM String FspSession α :=
  zoomSome FspSession.hs "noise handshake state missing" (fun hs f => { f with hs := some hs }) x

def finalize (S : Suite) (nowMs : ℚ) : EStateM String FspSession Unit := do
  match (← get).hs with
  | none => throw "noise handshake state missing"
  | some hs =>
    let (tx, rx) ← lift (hs.splitTxRx S)
    modify fun f => { f with
      tx := some tx, rx := some rx, sessionStartMs := nowMs, state := .established, hs := none }

def buildSessionSetup (S : Suite) (random : Bytes) (srcCoords destCoords : List NodeAddr) :
    EStateM String FspSession Bytes := do
  let f ← get
  if f.role ≠ .initiator then throw "only initiator builds SessionSetup"
  match f.remotePubkey with
  | none => throw "initiator needs remote pubkey"
  | some remotePubkey =>
    requireHs
    modify ({ · with state := .handshaking })
    let noiseMsg ← onHs (NoiseHandshake.writeMessage S random [])
    if noiseMsg.length ≠ NOISE_XK_MSG1_LEN then throw s!"XK msg1 size {noiseMsg.length} != {NOISE_XK_MSG1_LEN}"
    let destCoords ← lift (if f.strictClient then (deriveNodeAddr S remotePubkey).map ([·]) else .ok destCoords)
    lift (encodeSessionSetup {
      srcCoords := if f.strictClient then [f.identity.nodeAddr] else srcCoords
      destCoords
      flags := SESSION_FLAG_DIRECT_FSP_TRANSPORT
      handshakePayload := noiseMsg })

/-- The first SessionSetup of a responder. -/
def acceptSessionSetup (S : Suite) (packet random : Bytes) (localCoords : List NodeAddr)
    (remoteNodeAddr : Option NodeAddr) : EStateM String FspSession Bytes := do
  let f ← get
  requireHs
  let setup ← lift (decodeSessionSetup packet)
  if setup.handshakePayload.length ≠ NOISE_XK_MSG1_LEN then throw "bad XK msg1 length"
  let payload ← onHs (NoiseHandshake.readMessage S setup.handshakePayload)
  if payload.length ≠ 0 then throw "XK msg1 inner payload must be empty"
  modify ({ · with remoteDirectFspTransport := hasFlag setup.flags SESSION_FLAG_DIRECT_FSP_TRANSPORT })
  let noiseMsg ← onHs (NoiseHandshake.writeMessage S random f.localEpoch)
  if noiseMsg.length ≠ NOISE_XK_MSG2_LEN then throw s!"XK msg2 size {noiseMsg.length} != {NOISE_XK_MSG2_LEN}"
  let reply ← lift (encodeSessionAck {
    srcCoords := if f.strictClient then [f.identity.nodeAddr] else localCoords
    destCoords := if f.strictClient then (remoteNodeAddr.map ([·])).getD (setup.srcCoords.take 1) else setup.srcCoords
    flags := SESSION_FLAG_DIRECT_FSP_TRANSPORT
    handshakePayload := noiseMsg })
  modify ({ · with state := .handshaking, receivedSessionSetup := some packet, sentSessionAck := some reply })
  return reply

def handleSessionSetup (S : Suite) (packet random : Bytes) (localCoords : List NodeAddr)
    (remoteNodeAddr : Option NodeAddr) : EStateM String FspSession Bytes := do
  let f ← get
  if f.role ≠ .responder then throw "only responder handles SessionSetup"
  match f.receivedSessionSetup with
  | some received =>
    match f.sentSessionAck with
    | some ack => if packet = received then return ack else throw "unexpected FSP SessionSetup after handshake start"
    | none => throw "unexpected FSP SessionSetup after handshake start"
  | none => acceptSessionSetup S packet random localCoords remoteNodeAddr

def matchesSessionSetup (packet : Bytes) (f : FspSession) : Bool := f.receivedSessionSetup == some packet

/-- The first SessionAck of an initiator. -/
def acceptSessionAck (S : Suite) (packet random : Bytes) (nowMs : ℚ) : EStateM String FspSession Bytes := do
  let f ← get
  requireHs
  let ack ← lift (decodeSessionAck packet)
  if ack.handshakePayload.length ≠ NOISE_XK_MSG2_LEN then throw "bad XK msg2 length"
  let payload ← onHs (NoiseHandshake.readMessage S ack.handshakePayload)
  if payload.length ≠ EPOCH_LEN then throw "XK msg2 inner payload must be 8 bytes"
  modify ({ · with
    remoteDirectFspTransport := hasFlag ack.flags SESSION_FLAG_DIRECT_FSP_TRANSPORT
    remoteEpoch := some payload })
  let noiseMsg ← onHs (NoiseHandshake.writeMessage S random f.localEpoch)
  if noiseMsg.length ≠ NOISE_XK_MSG3_LEN then throw s!"XK msg3 size {noiseMsg.length} != {NOISE_XK_MSG3_LEN}"
  let reply ← lift (encodeSessionMsg3 ⟨0, noiseMsg⟩)
  modify ({ · with receivedSessionAck := some packet, sentSessionMsg3 := some reply })
  finalize S nowMs
  return reply

def handleSessionAck (S : Suite) (packet random : Bytes) (nowMs : ℚ) : EStateM String FspSession Bytes := do
  let f ← get
  if f.role ≠ .initiator then throw "only initiator handles SessionAck"
  match f.receivedSessionAck with
  | some received =>
    match f.sentSessionMsg3 with
    | some msg3 => if packet = received then return msg3 else throw "unexpected FSP SessionAck after establishment"
    | none => throw "unexpected FSP SessionAck after establishment"
  | none => acceptSessionAck S packet random nowMs

/-- The SessionMsg3 that completes a responder. -/
def acceptSessionMsg3 (S : Suite) (packet : Bytes) (nowMs : ℚ) : EStateM String FspSession Unit := do
  requireHs
  let msg3 ← lift (decodeSessionMsg3 packet)
  if msg3.handshakePayload.length ≠ NOISE_XK_MSG3_LEN then throw "bad XK msg3 length"
  let payload ← onHs (NoiseHandshake.readMessage S msg3.handshakePayload)
  if payload.length ≠ EPOCH_LEN then throw "XK msg3 inner payload must be 8 bytes"
  modify ({ · with remoteEpoch := some payload })
  match (← get).hs.bind NoiseHandshake.getRemoteStatic with
  | none => throw "XK responder did not capture remote static"
  | some rs =>
    modify ({ · with remotePubkey := some rs, establishedMsg3 := some packet })
    finalize S nowMs

def handleSessionMsg3 (S : Suite) (packet : Bytes) (nowMs : ℚ) : EStateM String FspSession Unit := do
  let f ← get
  if f.role ≠ .responder then throw "only responder handles SessionMsg3"
  if f.state = .established then
    if f.establishedMsg3 = some packet then return
    throw "unexpected FSP Msg3 after establishment"
  acceptSessionMsg3 S packet nowMs

/-- The flags and coordinates a record is encoded with. -/
def recordCoords (S : Suite) (f : FspSession) (flags : Nat) (coords : Option (List NodeAddr × List NodeAddr)) :
    Except String (Nat × Option (List NodeAddr) × Option (List NodeAddr)) := do
  match coords with
  | none => return (flags, none, none)
  | some (src, dest) =>
    if f.strictClient then
      let dest ← match f.remotePubkey with
        | some remotePubkey => (deriveNodeAddr S remotePubkey).map ([·])
        | none => .ok []
      return (flags ||| FSP_FLAG_CP, some [f.identity.nodeAddr], some dest)
    else return (flags ||| FSP_FLAG_CP, some src, some dest)

def encryptMessage (S : Suite) (msgType : Nat) (payload : Bytes) (flags : Nat)
    (coords : Option (List NodeAddr × List NodeAddr)) (nowMs : ℚ) : EStateM String FspSession Bytes := do
  let f ← get
  match f.state, f.tx with
  | .established, some tx =>
    if msgType > 0xff then throw "FSP message type must be one byte"
    if f.txCounter ≥ maxNonce then throw "FSP nonce exhausted"
    let counter := f.txCounter
    set { f with txCounter := counter + 1 }
    lift (do
      let inner ← encodeFspInner ⟨toU32 (nowMs - f.sessionStartMs), msgType, 0, payload⟩
      validateEstablishedFlags flags
      let (flags, srcCoords, destCoords) ← recordCoords S f flags coords
      let aad ← encodeFspEstablishedHeader flags counter inner.length
      let ciphertext ← aeadSeal S (← tx.getKey) counter inner aad
      encodeFspEstablished ⟨flags, counter, inner.length, srcCoords, destCoords, ciphertext⟩)
  | _, _ => throw "FSP not established"

/-- `decryptIncoming` up to its callback: the record is authenticated and its counter is taken. -/
def openRecord (S : Suite) (packet : Bytes) : EStateM String FspSession (ReceivedRecord × FspInnerPacket) := do
  let f ← get
  match f.state, f.rx with
  | .established, some rx =>
    let est ← lift (decodeFspEstablished packet)
    if !f.replay.check est.counter then throw "FSP replay/duplicate counter"
    let aad ← lift (encodeFspEstablishedHeader est.flags est.counter est.payloadLen)
    let plaintext ← lift (do aeadOpen S (← rx.getKey) est.counter est.ciphertext aad)
    modify fun f => { f with replay := (f.replay.accept est.counter).2 }
    let inner ← lift (decodeFspInner plaintext)
    return (⟨est.counter, inner.timestamp, plaintext.length, false⟩, inner)
  | _, _ => throw "FSP not established"

/-- `decryptIncoming` after its callback. -/
def contentOf (inner : FspInnerPacket) : Except String FspReceived := do
  if inner.msgType = FSP_MSG_DATA then return ⟨inner.msgType, some (← decodeDataPacket inner.payload), none, none⟩
  if inner.msgType = FSP_MSG_ENDPOINT_DATA then
    return ⟨inner.msgType, none, some inner.payload, some inner.payload⟩
  return ⟨inner.msgType, none, none, some inner.payload⟩

def close (f : FspSession) : FspSession := { f with state := .closed, hs := none, tx := none, rx := none }

/-! The handshake in bare frames, which carry no coordinates; the nodes use the one above. -/

def buildMsg1 (S : Suite) (random : Bytes) : EStateM String FspSession Bytes := do
  let f ← get
  if f.role ≠ .initiator then throw "only initiator builds XK msg1"
  if f.remotePubkey.isNone then throw "initiator needs remote pubkey"
  requireHs
  modify ({ · with state := .handshaking })
  let noiseMsg ← onHs (NoiseHandshake.writeMessage S random [])
  if noiseMsg.length ≠ NOISE_XK_MSG1_LEN then throw s!"XK msg1 size {noiseMsg.length} != {NOISE_XK_MSG1_LEN}"
  lift (encodeFspHandshake ⟨.msg1, noiseMsg⟩)

def handleMsg1 (S : Suite) (packet random : Bytes) : EStateM String FspSession Bytes := do
  let f ← get
  if f.role ≠ .responder then throw "only responder handles XK msg1"
  requireHs
  let frame ← lift (decodeFspHandshake packet)
  if frame.phase ≠ .msg1 then throw "expected XK msg1"
  let payload ← onHs (NoiseHandshake.readMessage S frame.noiseMsg)
  if payload.length ≠ 0 then throw "XK msg1 inner payload must be empty"
  let noiseMsg ← onHs (NoiseHandshake.writeMessage S random f.localEpoch)
  if noiseMsg.length ≠ NOISE_XK_MSG2_LEN then throw s!"XK msg2 size {noiseMsg.length} != {NOISE_XK_MSG2_LEN}"
  lift (encodeFspHandshake ⟨.msg2, noiseMsg⟩)

def handleMsg2 (S : Suite) (packet random : Bytes) (nowMs : ℚ) : EStateM String FspSession Bytes := do
  let f ← get
  if f.role ≠ .initiator then throw "only initiator handles XK msg2"
  requireHs
  let frame ← lift (decodeFspHandshake packet)
  if frame.phase ≠ .msg2 then throw "expected XK msg2"
  if frame.noiseMsg.length ≠ NOISE_XK_MSG2_LEN then throw "bad XK msg2 length"
  let payload ← onHs (NoiseHandshake.readMessage S frame.noiseMsg)
  if payload.length ≠ EPOCH_LEN then throw "XK msg2 inner payload must be 8 bytes"
  modify ({ · with remoteEpoch := some payload })
  let noiseMsg ← onHs (NoiseHandshake.writeMessage S random f.localEpoch)
  if noiseMsg.length ≠ NOISE_XK_MSG3_LEN then throw s!"XK msg3 size {noiseMsg.length} != {NOISE_XK_MSG3_LEN}"
  finalize S nowMs
  lift (encodeFspHandshake ⟨.msg3, noiseMsg⟩)

def handleMsg3 (S : Suite) (packet : Bytes) (nowMs : ℚ) : EStateM String FspSession Unit := do
  let f ← get
  if f.role ≠ .responder then throw "only responder handles XK msg3"
  if f.state = .established then
    if f.establishedMsg3 = some packet then return
    throw "unexpected FSP Msg3 after establishment"
  requireHs
  let frame ← lift (decodeFspHandshake packet)
  if frame.phase ≠ .msg3 then throw "expected XK msg3"
  if frame.noiseMsg.length ≠ NOISE_XK_MSG3_LEN then throw "bad XK msg3 length"
  let payload ← onHs (NoiseHandshake.readMessage S frame.noiseMsg)
  if payload.length ≠ EPOCH_LEN then throw "XK msg3 inner payload must be 8 bytes"
  modify ({ · with remoteEpoch := some payload })
  match (← get).hs.bind NoiseHandshake.getRemoteStatic with
  | none => throw "XK responder did not capture remote static"
  | some rs =>
    modify ({ · with remotePubkey := some rs, establishedMsg3 := some packet })
    finalize S nowMs

end FspSession

end Fips
