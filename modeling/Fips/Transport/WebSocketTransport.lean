import Fips.Lib.Heap
import Fips.Lib.JsMap
import Fips.Lib.Promises
import Fips.Lib.Run
import Fips.Transport.WebRtcConfig
import Fips.Transport.WebSocketRecords

/-!
# `WebSocketTransport.ts`: seeds, their sockets and their queues

A seed is dialled again whenever its connection ends. Its state is beside the objects that only it uses:
its sockets, its timers and the promises of its callers. Every event of a socket, every timer and every
turn of the receive chain is a step, in whichever order they come.
-/

namespace Fips

/-! ## Limits -/

namespace WebSocketTransportConfig

/-- `integerInRange`, whose result is in the range. -/
def integerInRange (value : JsNumber) (min max : Nat) (name : String) : Except String { n : Nat // min ≤ n ∧ n ≤ max } :=
  let refused : Except String { n : Nat // min ≤ n ∧ n ≤ max } :=
    .error s!"{name} must be an integer between {min} and {max}"
  match value with
  | .finite q =>
    if h : q.den = 1 ∧ 0 ≤ q.num ∧ q.num ≤ 2 ^ 53 - 1 ∧ min ≤ q.num.toNat ∧ q.num.toNat ≤ max then
      .ok ⟨q.num.toNat, h.2.2.2.1, h.2.2.2.2⟩
    else refused
  | _ => refused

def positiveInteger (value : JsNumber) (name : String) : Except String { n : Nat // 1 ≤ n ∧ n ≤ 60 * 60 * 1000 } :=
  integerInRange value 1 (60 * 60 * 1000) name

end WebSocketTransportConfig

/-- The numbers of the configuration; one that is `undefined` is absent. -/
structure WebSocketTransportConfig where
  mtu : Option JsNumber
  maxFrameBytes : Option JsNumber
  maxSendQueue : Option JsNumber
  maxBufferedBytes : Option JsNumber
  connectTimeoutMs : Option JsNumber
  keyHintTimeoutMs : Option JsNumber
  reconnectInitialMs : Option JsNumber
  reconnectMaxMs : Option JsNumber
  sendPollMs : Option JsNumber

/-- The numbers that the constructor accepts. -/
structure WebSocketLimits where
  mtu : Nat
  maxFrameBytes : Nat
  maxSendQueue : Nat
  maxBufferedBytes : Nat
  connectTimeoutMs : Nat
  keyHintTimeoutMs : Nat
  reconnectInitialMs : Nat
  reconnectMaxMs : Nat
  sendPollMs : Nat
  mtu_pos : 1 ≤ mtu
  frame_fits : mtu + 64 ≤ maxFrameBytes
  queue_pos : 1 ≤ maxSendQueue
  reconnect_pos : 1 ≤ reconnectInitialMs
  reconnect_le : reconnectInitialMs ≤ reconnectMaxMs

/-- The checks of the constructor, in order. -/
def WebSocketTransportConfig.resolve (config : WebSocketTransportConfig) : Except String WebSocketLimits := do
  let mtu ← integerInRange (config.mtu.getD (.ofNat 1400)) 1 0xffff "mtu"
  let maxFrameBytes ← integerInRange (config.maxFrameBytes.getD (.ofNat (66 * 1024))) (mtu + 64) (1024 * 1024)
    "maxFrameBytes"
  let maxSendQueue ← integerInRange (config.maxSendQueue.getD (.ofNat 256)) 1 4096 "maxSendQueue"
  let maxBufferedBytes ← integerInRange (config.maxBufferedBytes.getD (.ofNat (1024 * 1024))) 1 (64 * 1024 * 1024)
    "maxBufferedBytes"
  let connectTimeoutMs ← positiveInteger (config.connectTimeoutMs.getD (.ofNat 5000)) "connectTimeoutMs"
  let keyHintTimeoutMs ← positiveInteger (config.keyHintTimeoutMs.getD (.ofNat 3000)) "keyHintTimeoutMs"
  let reconnectInitialMs ← positiveInteger (config.reconnectInitialMs.getD (.ofNat 1000)) "reconnectInitialMs"
  let reconnectMaxMs ← integerInRange (config.reconnectMaxMs.getD (.ofNat 30000)) reconnectInitialMs (60 * 60 * 1000)
    "reconnectMaxMs"
  let sendPollMs ← integerInRange (config.sendPollMs.getD (.ofNat 10)) 1 1000 "sendPollMs"
  return ⟨mtu, maxFrameBytes, maxSendQueue, maxBufferedBytes, connectTimeoutMs, keyHintTimeoutMs, reconnectInitialMs,
    reconnectMaxMs, sendPollMs, mtu.2.1, maxFrameBytes.2.1, maxSendQueue.2.1, reconnectInitialMs.2.1, reconnectMaxMs.2.1⟩

/-! ## Objects -/

abbrev SocketRef := Nat
abbrev TimerRef := Nat
abbrev PromiseRef := Nat

/-- What has happened to a socket, in order. -/
inductive SocketEvent
  /-- A key hint is sent. -/
  | hint (wire : Bytes)
  /-- The record of a call of `send` is sent. -/
  | record (send : PromiseRef) (wire : Bytes)
  /-- A message has been read. -/
  | received (wire : Bytes)
  /-- A record is handed to `onPacket`. -/
  | delivered (wire : Bytes)
deriving DecidableEq

structure Socket where
  /-- The generation that its listeners hold. -/
  generation : Nat
  /-- Whether it has had its `open` event. -/
  opened : Bool
  /-- Whether `close` has been called on it. -/
  closed : Bool
  history : List SocketEvent
deriving DecidableEq, Inhabited

inductive Settlement
  | resolved
  | rejected (error : String)
deriving DecidableEq

/-- The promise of a `connect`, or of a `send` of a packet. -/
abbrev CallerPromise := Promise (Option Bytes) Settlement

/-- A running timer; those of a connection hold its generation. -/
inductive SeedTimer
  | connect (generation : Nat)
  | keyHint (generation : Nat)
  | send
  | reconnect
deriving DecidableEq

/-- `event.data` of a message. -/
inductive MessageData
  | text
  | binary (wire : Bytes)
  | blob (wire : Bytes)
  | unsupported
deriving DecidableEq

/-- Where a turn of the receive chain is: its `receive` has not begun, awaits the message, or has thrown. -/
inductive ReceiveStage
  | waiting
  | decoding
  | failed (error : String)
deriving DecidableEq

structure ReceiveTurn where
  socket : SocketRef
  generation : Nat
  data : MessageData
  stage : ReceiveStage
deriving DecidableEq

structure PendingSend where
  promise : PromiseRef
  data : Bytes
deriving DecidableEq

/-- What the context is told. -/
inductive SeedReport
  | connecting
  | connected
  | disconnected (reason : String)
  | discovered (pubkey : Bytes)
  | packet (wire : Bytes)
deriving DecidableEq

structure WebSocketTransportStats where
  connectionAttempts : Nat
  connectionsOpened : Nat
  connectionsClosed : Nat
  reconnectsScheduled : Nat
  framesSent : Nat
  framesReceived : Nat
  bytesSent : Nat
  bytesReceived : Nat
  invalidFrames : Nat
  sendQueueFull : Nat
deriving DecidableEq

/-- A seed's state, its objects, its part of the counters and what it has told the context. -/
structure SeedState where
  socket : Option SocketRef
  generation : Nat
  nonce : Option Nat
  remoteXOnly : Option Bytes
  readyWaiters : List PromiseRef
  queue : List PendingSend
  receiveChain : List ReceiveTurn
  reconnectDelayMs : Nat
  reconnectTimer : Option TimerRef
  connectTimer : Option TimerRef
  keyHintTimer : Option TimerRef
  sendTimer : Option TimerRef
  sockets : Heap Socket
  timers : JsMap TimerRef SeedTimer
  nextTimer : TimerRef
  promises : Heap CallerPromise
  counters : WebSocketTransportStats
  reports : List SeedReport

/-- What a step reads of the world. -/
structure SeedSurroundings where
  /-- `readyState` is `OPEN`. -/
  isOpen : SocketRef → Bool
  /-- `bufferedAmount` of the current socket when the step begins. -/
  bufferedAmount : Nat
  /-- The error of the `n`-th call of a socket's `send` in the step, if it throws. -/
  sendError : Nat → Option String
  /-- The error of `new WebSocket`, if it throws. -/
  socketError : Option String
  /-- `randomNonce`, unless it throws; the check of its range is part of it. -/
  nonce : Option (Fin (2 ^ 64))
  /-- `ctx.allowPeer`. -/
  allowPeer : Bytes → Bool

/-- The transport's own state as a seed sees it: the identity in its context, if it has one. -/
structure TransportView where
  localXOnly : Option Bytes
  stopping : Bool
deriving DecidableEq

namespace SeedState

/-- A seed of a new transport. -/
def new (limits : WebSocketLimits) : SeedState where
  socket := none
  generation := 0
  nonce := none
  remoteXOnly := none
  readyWaiters := []
  queue := []
  receiveChain := []
  reconnectDelayMs := limits.reconnectInitialMs
  reconnectTimer := none
  connectTimer := none
  keyHintTimer := none
  sendTimer := none
  sockets := .empty
  timers := []
  nextTimer := 0
  promises := .empty
  counters := ⟨0, 0, 0, 0, 0, 0, 0, 0, 0, 0⟩
  reports := []

variable (limits : WebSocketLimits) (v : TransportView) (w : SeedSurroundings) (s : SeedState)

/-! ### Promises, timers and reports -/

def settle (settlement : Settlement) (p : PromiseRef) : SeedState :=
  { s with promises := Promises.settle settlement p s.promises }

def settleAll (settlement : Settlement) (ps : List PromiseRef) : SeedState :=
  { s with promises := Promises.settleAll settlement ps s.promises }

def resolveReadyWaiters : SeedState := { s.settleAll .resolved s.readyWaiters with readyWaiters := [] }

def rejectReadyWaiters (error : String) : SeedState :=
  { s.settleAll (.rejected error) s.readyWaiters with readyWaiters := [] }

def rejectQueue (error : String) : SeedState :=
  { s.settleAll (.rejected error) (s.queue.map PendingSend.promise) with queue := [] }

/-- `clearTimeout` of a timer that a field may hold. -/
def clearTimeout (timer : Option TimerRef) : SeedState :=
  match timer with
  | none => s
  | some t => { s with timers := s.timers.delete t }

def clearConnectionTimers : SeedState :=
  { ((s.clearTimeout s.connectTimer).clearTimeout s.keyHintTimer).clearTimeout s.sendTimer with
    connectTimer := none
    keyHintTimer := none
    sendTimer := none }

def clearTimers : SeedState :=
  { s.clearConnectionTimers.clearTimeout s.reconnectTimer with reconnectTimer := none }

/-- `setTimeout`; the reference is the state's `nextTimer` before. -/
def setTimeout (timer : SeedTimer) : SeedState :=
  { s with timers := s.timers.set s.nextTimer timer, nextTimer := s.nextTimer + 1 }

/-- A call of the context, which is there unless the transport is stopped. -/
def report (r : SeedReport) : SeedState := if v.localXOnly.isSome then { s with reports := s.reports ++ [r] } else s

def count (f : WebSocketTransportStats → WebSocketTransportStats) : SeedState := { s with counters := f s.counters }

def note (k : SocketRef) (e : SocketEvent) : SeedState :=
  { s with sockets := s.sockets.modify k fun socket => { socket with history := socket.history ++ [e] } }

/-! ### The end of a connection -/

def connectionEnded (generation : Nat) (error : String) : SeedState :=
  if generation ≠ s.generation then s
  else
    let wasOpen := s.socket.isSome
    let s := { s.clearConnectionTimers with socket := none, nonce := none, remoteXOnly := none }
    let s := (s.rejectReadyWaiters error).rejectQueue error
    let s := if wasOpen then s.count fun c => { c with connectionsClosed := c.connectionsClosed + 1 } else s
    let s := s.report v (.disconnected error)
    if v.stopping || s.reconnectTimer.isSome then s
    else
      let delay := s.reconnectDelayMs
      let s := { s with reconnectDelayMs := min (delay * 2) limits.reconnectMaxMs }.count fun c =>
        { c with reconnectsScheduled := c.reconnectsScheduled + 1 }
      { s.setTimeout .reconnect with reconnectTimer := some s.nextTimer }

/-- `socket.close(..)`. -/
def closeSocket (socket : Option SocketRef) : SeedState :=
  match socket with
  | none => s
  | some k => { s with sockets := s.sockets.modify k fun socket => { socket with closed := true } }

def failSocket (generation : Nat) (error : String) : SeedState :=
  if generation ≠ s.generation then s
  else (s.closeSocket s.socket).connectionEnded limits v generation error

/-! ### Dials -/

def dial : SeedState :=
  if v.stopping || s.socket.isSome || s.reconnectTimer.isSome then s
  else
    let generation := s.generation + 1
    let s := { s with generation := generation }.count fun c => { c with connectionAttempts := c.connectionAttempts + 1 }
    let s := s.report v .connecting
    match w.socketError with
    | some error => s.connectionEnded limits v generation error
    | none =>
      let s := { s with socket := some s.sockets.next, sockets := s.sockets.alloc ⟨generation, false, false, []⟩ }
      { s.setTimeout (.connect generation) with connectTimer := some s.nextTimer }

def isReady : Bool := (s.socket.map w.isOpen).getD false && s.remoteXOnly.isSome

def isCurrent (k : SocketRef) (generation : Nat) : Bool := s.socket = some k && s.generation = generation

/-! ### Records out -/

/-- The loop of `pump` on the socket `k`, given what is buffered and how often `send` has been called. -/
def pumpLoop (k : SocketRef) : List PendingSend → Nat → Nat → SeedState → SeedState
  | [], _, _, s => s
  | next :: queue, buffered, calls, s =>
    if v.localXOnly.isSome && (s.remoteXOnly.map w.allowPeer) = some false then s.rejectQueue "FIPS peer is blocked"
    else if buffered + next.data.length > limits.maxBufferedBytes then
      { s.setTimeout .send with sendTimer := some s.nextTimer }
    else
      let s := { s with queue := queue }
      match w.sendError calls with
      | none =>
        let s := (s.note k (.record next.promise next.data)).count fun c =>
          { c with framesSent := c.framesSent + 1, bytesSent := c.bytesSent + next.data.length }
        pumpLoop k queue (buffered + next.data.length) (calls + 1) (s.settle .resolved next.promise)
      | some error => (s.settle (.rejected error) next.promise).failSocket limits v s.generation error

def pump : SeedState :=
  match s.socket with
  | none => s
  | some k => if s.sendTimer.isSome || s.isReady w = false then s else pumpLoop limits v w k s.queue w.bufferedAmount 0 s

/-! ### Callers -/

/-- A promise that is settled at once. -/
def settledPromise (packet : Option Bytes) (settlement : Settlement) : SeedState :=
  { s with promises := s.promises.alloc ⟨packet, [settlement]⟩ }

def connect : SeedState :=
  if v.stopping then s.settledPromise none (.rejected "WebSocket transport is not started")
  else if s.isReady w then s.settledPromise none .resolved
  else
    let s := { s with readyWaiters := s.readyWaiters ++ [s.promises.next], promises := s.promises.alloc ⟨none, []⟩ }
    if s.socket.isNone && s.reconnectTimer.isNone then s.dial limits v w else s

def send (packet : Bytes) : SeedState :=
  match validateFipsRecord packet limits.maxFrameBytes with
  | .error error => s.settledPromise (some packet) (.rejected error)
  | .ok _ =>
    if packet.length > limits.maxBufferedBytes then
      s.settledPromise (some packet) (.rejected "WebSocket record exceeds send buffer budget")
    else if s.isReady w = false then s.settledPromise (some packet) (.rejected "WebSocket seed is not connected")
    else if s.queue.length ≥ limits.maxSendQueue then
      (s.count fun c => { c with sendQueueFull := c.sendQueueFull + 1 }).settledPromise (some packet)
        (.rejected "WebSocket send queue full")
    else
      let s : SeedState := { s with
        queue := s.queue ++ [⟨s.promises.next, packet⟩]
        promises := s.promises.alloc ⟨some packet, []⟩ }
      s.pump limits v w

/-! ### Events of a socket -/

/-- The listener of `open`, which a socket calls once. -/
def socketOpen (k : SocketRef) : SeedState :=
  let generation := (s.sockets.get k).generation
  if ¬ k < s.sockets.next ∨ (s.sockets.get k).opened then s
  else
    let s := { s with sockets := s.sockets.modify k fun socket => { socket with opened := true } }
    if s.isCurrent k generation = false then s
    else
      let s := ({ s.clearTimeout s.connectTimer with connectTimer := none }).count fun c =>
        { c with connectionsOpened := c.connectionsOpened + 1 }
      match w.nonce with
      | none => s
      | some nonce =>
        let s := { s with nonce := some nonce.val }
        match w.sendError 0, encodeLocalKeyHintRequest nonce.val with
        | none, .ok wire =>
          let s := s.note k (.hint wire)
          { s.setTimeout (.keyHint generation) with keyHintTimer := some s.nextTimer }
        | some error, _ | _, .error error => s.failSocket limits v generation error

def socketMessage (k : SocketRef) (data : MessageData) : SeedState :=
  let generation := (s.sockets.get k).generation
  if s.isCurrent k generation then { s with receiveChain := s.receiveChain ++ [⟨k, generation, data, .waiting⟩] } else s

def socketError (k : SocketRef) : SeedState :=
  let generation := (s.sockets.get k).generation
  if s.isCurrent k generation then s.failSocket limits v generation "WebSocket connection error" else s

def socketClose (k : SocketRef) (reason : String) : SeedState :=
  let generation := (s.sockets.get k).generation
  if s.isCurrent k generation then s.connectionEnded limits v generation reason else s

/-! ### Records in -/

/-- `receive` begins its turn. -/
def receiveBegin : SeedState :=
  match s.receiveChain with
  | [] => s
  | turn :: turns =>
    if turn.stage ≠ .waiting then s
    else if s.isCurrent turn.socket turn.generation = false then { s with receiveChain := turns }
    else { s with receiveChain := { turn with stage := .decoding } :: turns }

/-- `binaryMessage`; only a blob may fail to be read. -/
def binaryMessage (data : MessageData) (readable : Bool) : Except String Bytes :=
  match data with
  | .text => .error "WebSocket transport accepts binary messages only"
  | .binary wire => .ok wire
  | .blob wire => if readable then .ok wire else .error "NotReadableError"
  | .unsupported => .error "unsupported WebSocket binary message"

/-- `receive` after the message has been read, up to its end or its `throw`. -/
def receiveWire (k : SocketRef) (wire : Bytes) : SeedState × Option String :=
  match decodeLocalKeyHint wire with
  | some (.request nonce) =>
    match v.localXOnly with
    | none => (s, some "WebSocket transport is not started")
    | some localXOnly =>
      match encodeLocalKeyHintResponse nonce localXOnly, w.sendError 0 with
      | .ok response, none => (s.note k (.hint response), none)
      | .error error, _ | _, some error => (s, some error)
  | some (.response nonce pubkey) =>
    if some nonce ≠ s.nonce ∨ s.remoteXOnly.isSome then (s, none)
    else if v.localXOnly = some pubkey then (s, some "WebSocket seed returned the local FIPS identity")
    else if v.localXOnly.isSome && w.allowPeer pubkey = false then (s, some "FIPS peer is blocked")
    else
      let s := { s.clearTimeout s.keyHintTimer with
        keyHintTimer := none
        remoteXOnly := some pubkey
        reconnectDelayMs := limits.reconnectInitialMs }
      let s := (s.resolveReadyWaiters.report v .connected).report v (.discovered pubkey)
      (s.pump limits v w, none)
  | none =>
    if s.remoteXOnly.isNone then (s, some "FIPS record arrived before WebSocket key hint")
    else
      match validateFipsRecord wire limits.maxFrameBytes with
      | .error error => (s.count fun c => { c with invalidFrames := c.invalidFrames + 1 }, some error)
      | .ok _ =>
        let s := s.count fun c =>
          { c with framesReceived := c.framesReceived + 1, bytesReceived := c.bytesReceived + wire.length }
        ((s.note k (.delivered wire)).report v (.packet wire), none)

/-- The turn of `receive` goes on; a turn that throws waits for its `catch`. -/
def receiveDecoded (readable : Bool) : SeedState :=
  match s.receiveChain with
  | [] => s
  | turn :: turns =>
    if turn.stage ≠ .decoding then s
    else
      match binaryMessage turn.data readable with
      | .error error => { s with receiveChain := { turn with stage := .failed error } :: turns }
      | .ok wire =>
        if s.isCurrent turn.socket turn.generation = false then { s with receiveChain := turns }
        else
          match (s.note turn.socket (.received wire)).receiveWire limits v w turn.socket wire with
          | (s, none) => { s with receiveChain := turns }
          | (s, some error) => { s with receiveChain := { turn with stage := .failed error } :: turns }

/-- The `catch` of a turn. -/
def receiveCaught : SeedState :=
  match s.receiveChain with
  | ⟨_, generation, _, .failed error⟩ :: turns =>
    { s with receiveChain := turns }.failSocket limits v generation error
  | _ => s

/-! ### Timers and the end -/

def timeout (t : TimerRef) : SeedState :=
  match s.timers.get t with
  | none => s
  | some timer =>
    let s := { s with timers := s.timers.delete t }
    match timer with
    | .connect generation => s.failSocket limits v generation "WebSocket connect timeout"
    | .keyHint generation => s.failSocket limits v generation "WebSocket key hint timeout"
    | .send => { s with sendTimer := none }.pump limits v w
    | .reconnect => { s with reconnectTimer := none }.dial limits v w

/-- What `stop` does with a seed. -/
def stop : SeedState :=
  let s := (s.clearTimers.rejectReadyWaiters "WebSocket transport stopped").rejectQueue "WebSocket transport stopped"
  { s.closeSocket s.socket with socket := none, remoteXOnly := none, nonce := none }

/-! ### Steps of a seed -/

inductive Action
  | connect
  | send (packet : Bytes)
  | socketOpen (k : SocketRef)
  | socketMessage (k : SocketRef) (data : MessageData)
  | socketError (k : SocketRef)
  | socketClose (k : SocketRef) (reason : String)
  | receiveBegin
  | receiveDecoded (readable : Bool)
  | receiveCaught
  | timeout (t : TimerRef)

def act (a : Action) : SeedState :=
  match a with
  | .connect => s.connect limits v w
  | .send packet => s.send limits v w packet
  | .socketOpen k => s.socketOpen limits v w k
  | .socketMessage k data => s.socketMessage k data
  | .socketError k => s.socketError limits v k
  | .socketClose k reason => s.socketClose limits v k reason
  | .receiveBegin => s.receiveBegin
  | .receiveDecoded readable => s.receiveDecoded limits v w readable
  | .receiveCaught => s.receiveCaught limits v
  | .timeout t => s.timeout limits v w t

end SeedState

/-! ## The transport -/

abbrev SeedUrl := String

structure WebSocketTransport where
  view : TransportView
  seeds : SeedUrl → SeedState

namespace WebSocketTransport

def new (limits : WebSocketLimits) : WebSocketTransport := ⟨⟨none, true⟩, fun _ => .new limits⟩

variable (limits : WebSocketLimits) (urls : List SeedUrl)

def start (w : SeedUrl → SeedSurroundings) (localXOnly : Bytes) (s : WebSocketTransport) : WebSocketTransport :=
  if s.view.stopping = false then s
  else
    let v : TransportView := ⟨some localXOnly, false⟩
    ⟨v, fun url => if url ∈ urls then (s.seeds url).dial limits v (w url) else s.seeds url⟩

def stop (s : WebSocketTransport) : WebSocketTransport :=
  if s.view.stopping then s
  else ⟨⟨none, true⟩, fun url => if url ∈ urls then (s.seeds url).stop else s.seeds url⟩

inductive Action
  | start (localXOnly : Bytes)
  | stop
  | seed (url : SeedUrl) (a : SeedState.Action)

/-- A step; a call for a seed that is not configured throws. -/
def step (s : WebSocketTransport) (e : (SeedUrl → SeedSurroundings) × Action) : WebSocketTransport :=
  match e.2 with
  | .start localXOnly => s.start limits urls e.1 localXOnly
  | .stop => s.stop urls
  | .seed url a =>
    if url ∈ urls then
      { s with seeds := fun url' => if url' = url then (s.seeds url).act limits s.view (e.1 url) a else s.seeds url' }
    else s

end WebSocketTransport

end Fips
