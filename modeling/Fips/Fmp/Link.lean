import Fips.Crypto.Replay
import Fips.Fmp.Wire
import Fips.Mmp.ReceiverReports
import Fips.Noise.Handshake

/-!
# `fmp/link.ts`: the FMP link

The adjacent-peer channel: a Noise IK handshake, then sealed frames with an explicit counter. Each
method is a stateful computation on the link; `random` is the ephemeral scalar it would draw and
`nowMs` the value of `performance.now()` it would read.
-/

namespace Fips
open Exec

inductive LinkState
  | init
  | handshaking
  | established
  | closed
deriving DecidableEq

structure FmpLink where
  role : Role
  localSessionIdx : Nat
  identity : FipsIdentity
  localEpoch : Bytes
  remotePubkey : Option Bytes
  remoteSessionIdx : Option Nat
  remoteEpoch : Option Bytes
  hs : Option NoiseHandshake
  tx : Option CipherState
  rx : Option CipherState
  establishedMsg1 : Option Bytes
  establishedMsg2 : Option Bytes
  txCounter : Nat
  sessionStartMs : ℚ
  rxReplay : ReplayWindow
  receiverReports : FmpReceiverReports
  state : LinkState

structure FmpHandshakeResult where
  reply : Option Bytes
  established : Bool
  remotePubkey : Bytes
deriving DecidableEq

def EPOCH_PAYLOAD_LEN : Nat := 8

namespace FmpLink

def new (S : Suite) (identity : FipsIdentity) (remotePubkey : Option Bytes) (role : Role) (sessionIdx : Nat)
    (localEpoch : Bytes) (ephemeralOverride : Option Bytes) : Except String FmpLink := do
  if localEpoch.length ≠ EPOCH_PAYLOAD_LEN then throw "FMP local epoch must be 8 bytes"
  let hs ← NoiseHandshake.new S .IK role identity remotePubkey ephemeralOverride
  return {
    role, localSessionIdx := sessionIdx, identity, localEpoch, remotePubkey,
    remoteSessionIdx := none, remoteEpoch := none, hs := some hs, tx := none, rx := none,
    establishedMsg1 := none, establishedMsg2 := none, txCounter := 0, sessionStartMs := 0,
    rxReplay := .new, receiverReports := .new, state := .init }

/-- `if (!this.hs) throw ...`. -/
def requireHs : EStateM String FmpLink Unit := do
  if (← get).hs.isNone then throw "noise handshake state missing"

/-- Runs a Noise method on `this.hs`. -/
def onHs {α : Type} (x : EStateM String NoiseHandshake α) : EStateM String FmpLink α :=
  zoomSome FmpLink.hs "noise handshake state missing" (fun hs l => { l with hs := some hs }) x

/-- Splits the keys and drops the handshake state. -/
def finalize (S : Suite) (nowMs : ℚ) : EStateM String FmpLink Unit := do
  match (← get).hs with
  | none => throw "noise handshake state missing"
  | some hs =>
    let (tx, rx) ← lift (hs.splitTxRx S)
    modify fun l => { l with
      tx := some tx, rx := some rx, sessionStartMs := nowMs, state := .established, hs := none }

def buildMsg1 (S : Suite) (random : Bytes) : EStateM String FmpLink Bytes := do
  let l ← get
  if l.role ≠ .initiator then throw "only initiator builds Msg1"
  if l.remotePubkey.isNone then throw "initiator needs remote pubkey"
  requireHs
  modify ({ · with state := .handshaking })
  let noiseMsg1 ← onHs (NoiseHandshake.writeMessage S random l.localEpoch)
  if noiseMsg1.length ≠ NOISE_IK_MSG1_LEN then
    throw s!"noise IK msg1 size {noiseMsg1.length} != {NOISE_IK_MSG1_LEN}"
  lift (encodeFmpMsg1 ⟨l.localSessionIdx, noiseMsg1⟩)

/-- The error that tells a fresh Msg1 from a replay of the one this link was built from. -/
def unexpectedMsg1 : String := "unexpected FMP Msg1 after establishment"

/-- The answer to a byte-exact copy of the Msg1 that established the link. -/
def replayedMsg1 (l : FmpLink) (packet : Bytes) : Except String FmpHandshakeResult :=
  match l.establishedMsg1, l.establishedMsg2, l.remotePubkey with
  | some msg1, some msg2, some remotePubkey =>
    if packet = msg1 then .ok ⟨some msg2, true, remotePubkey⟩ else .error unexpectedMsg1
  | _, _, _ => .error unexpectedMsg1

def handleMsg1 (S : Suite) (packet random : Bytes) (nowMs : ℚ) : EStateM String FmpLink FmpHandshakeResult := do
  let l ← get
  if l.role ≠ .responder then throw "only responder handles Msg1"
  if l.state = .established then return ← lift (l.replayedMsg1 packet)
  requireHs
  let msg1 ← lift (decodeFmpMsg1 packet)
  let payload ← onHs (NoiseHandshake.readMessage S msg1.noiseMsg1)
  if payload.length ≠ EPOCH_PAYLOAD_LEN then throw "noise IK msg1 inner payload must be 8 bytes"
  modify ({ · with remoteEpoch := some payload, remoteSessionIdx := some msg1.senderIdx })
  match (← get).hs.bind NoiseHandshake.getRemoteStatic with
  | none => throw "noise IK responder did not capture remote static"
  | some rs =>
    modify ({ · with remotePubkey := some rs })
    let noiseMsg2 ← onHs (NoiseHandshake.writeMessage S random l.localEpoch)
    if noiseMsg2.length ≠ NOISE_IK_MSG2_LEN then
      throw s!"noise IK msg2 size {noiseMsg2.length} != {NOISE_IK_MSG2_LEN}"
    let reply ← lift (encodeFmpMsg2 ⟨l.localSessionIdx, msg1.senderIdx, noiseMsg2⟩)
    modify ({ · with establishedMsg1 := some packet, establishedMsg2 := some reply })
    finalize S nowMs
    return ⟨some reply, true, rs⟩

def handleMsg2 (S : Suite) (packet : Bytes) (nowMs : ℚ) : EStateM String FmpLink FmpHandshakeResult := do
  let l ← get
  if l.role ≠ .initiator then throw "only initiator handles Msg2"
  if l.state = .established then
    if l.establishedMsg2 = some packet then return ⟨none, true, l.remotePubkey.getD []⟩
    throw "unexpected FMP Msg2 after establishment"
  requireHs
  let msg2 ← lift (decodeFmpMsg2 packet)
  if msg2.receiverIdx ≠ l.localSessionIdx then throw "FMP Msg2 receiver_idx mismatch"
  let payload ← onHs (NoiseHandshake.readMessage S msg2.noiseMsg2)
  if payload.length ≠ EPOCH_PAYLOAD_LEN then throw "noise IK msg2 inner payload must be 8 bytes"
  modify ({ · with
    remoteEpoch := some payload, remoteSessionIdx := some msg2.senderIdx, establishedMsg2 := some packet })
  finalize S nowMs
  return ⟨none, true, l.remotePubkey.getD []⟩

def encryptOutgoing (S : Suite) (payload : Bytes) (msgType : Nat) (nowMs : ℚ) : EStateM String FmpLink Bytes := do
  let l ← get
  match l.state, l.tx, l.remoteSessionIdx with
  | .established, some tx, some remoteSessionIdx =>
    if l.txCounter ≥ maxNonce then throw "FMP nonce exhausted"
    let counter := l.txCounter
    set { l with txCounter := counter + 1 }
    let inner ← lift (encodeFmpInner ⟨toU32 (nowMs - l.sessionStartMs), msgType, payload⟩)
    let aad ← lift (encodeFmpEstablishedHeader 0 remoteSessionIdx counter inner.length)
    let ciphertext ← lift (do aeadSeal S (← tx.getKey) counter inner aad)
    lift (encodeFmpEstablished ⟨0, remoteSessionIdx, counter, inner.length, ciphertext⟩)
  | _, _, _ => throw "FMP link not established"

def decryptIncoming (S : Suite) (packet : Bytes) (nowMs : ℚ) : EStateM String FmpLink (Nat × Bytes) := do
  let l ← get
  match l.state, l.rx with
  | .established, some rx =>
    let est ← lift (decodeFmpEstablished packet)
    if est.receiverIdx ≠ l.localSessionIdx then throw "FMP Established receiver_idx mismatch"
    if !l.rxReplay.check est.counter then throw "FMP replay/duplicate counter"
    let aad ← lift (encodeFmpEstablishedHeader est.flags est.receiverIdx est.counter est.payloadLen)
    let plaintext ← lift (do aeadOpen S (← rx.getKey) est.counter est.ciphertext aad)
    modify fun l => { l with rxReplay := (l.rxReplay.accept est.counter).2 }
    let inner ← lift (decodeFmpInner plaintext)
    modify fun l => { l with
      receiverReports := l.receiverReports.record
        ⟨est.counter, inner.timestamp, packet.length, est.flags / 2 % 2 = 1⟩ nowMs }
    return (inner.msgType, inner.payload)
  | _, _ => throw "FMP link not established"

def receiverReportFor (senderReport : Bytes) (nowMs : ℚ) (l : FmpLink) : Option Bytes × FmpLink :=
  if l.state ≠ .established then (none, l)
  else
    let (report, receiverReports) := l.receiverReports.forSenderReport senderReport nowMs
    (report, { l with receiverReports })

def close (l : FmpLink) : FmpLink := { l with state := .closed }

end FmpLink

end Fips
