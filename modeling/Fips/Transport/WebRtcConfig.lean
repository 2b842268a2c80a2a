import Fips.Lib.JsMap
import Fips.Node.SocketAddr

/-!
# `WebRtcTransportSupport.ts`, `WebRtcAutoConnectPolicy.ts`: limits and automatic dials

Of the configuration, what admission and automatic dials read. A limit is any number, and a property
may be set to `undefined`, which as a number is NaN.
-/

namespace Fips
open UnitStrings

/-! ## Numbers -/

inductive JsNumber
  | nan
  | negInfinity
  | finite (q : ℚ)
  | infinity
deriving DecidableEq

namespace JsNumber

/-- `a <= b`. -/
def le : JsNumber → JsNumber → Bool
  | nan, _ => false
  | _, nan => false
  | negInfinity, _ => true
  | _, infinity => true
  | finite a, finite b => a ≤ b
  | _, _ => false

/-- `Math.min`. -/
def min (a b : JsNumber) : JsNumber := if a = nan ∨ b = nan then nan else if a.le b then a else b

/-- `Math.max`. -/
def max (a b : JsNumber) : JsNumber := if a = nan ∨ b = nan then nan else if a.le b then b else a

def floor : JsNumber → JsNumber
  | finite q => finite ⌊q⌋
  | a => a

def half : JsNumber → JsNumber
  | finite q => finite (q / 2)
  | a => a

/-- `a - n`. -/
def sub (a : JsNumber) (n : Nat) : JsNumber :=
  match a with
  | finite q => finite (q - n)
  | a => a

def ofNat (n : Nat) : JsNumber := finite n

end JsNumber

/-! ## The configuration -/

abbrev PubkeyHex := UnitString

/-- A property of an object: absent, set to `undefined`, or set to a value. -/
abbrev Property (α : Type) := Option (Option α)

/-- The property as it is read. -/
def Property.read {α : Type} (p : Property α) : Option α := p.getD none

/-- The property of `{ p: value, ...config }`. -/
def Property.spread {α : Type} (p : Property α) (value : α) : Option α := p.getD (some value)

/-- A property as a number. -/
def toNumber (value : Option JsNumber) : JsNumber := value.getD .nan

structure WebRtcTransportConfig where
  advertiseOnNostr : Property Bool
  acceptConnections : Property Bool
  /-- Whether there is an `allowIncomingPeer`. -/
  allowIncomingPeer : Bool
  autoConnect : Property Bool
  maxConnections : Property JsNumber
  maxAutoConnections : Property JsNumber
  preferredAutoConnectPeers : Property (List PubkeyHex)

structure ResolvedWebRtcTransportConfig where
  acceptConnections : Bool
  allowIncomingPeer : Bool
  autoConnect : Bool
  maxConnections : JsNumber
  maxAutoConnections : JsNumber
  preferredAutoConnectPeers : List PubkeyHex

def resolveWebRtcTransportConfig (config : WebRtcTransportConfig) : ResolvedWebRtcTransportConfig :=
  let maxConnections := config.maxConnections.read.getD (.ofNat 32)
  { acceptConnections :=
      (config.acceptConnections.spread (config.acceptConnections.read.getD (config.advertiseOnNostr.read.getD false))).getD false
    allowIncomingPeer := config.allowIncomingPeer
    autoConnect := (config.autoConnect.spread false).getD false
    -- the spread comes last, so that a limit that is set is not clamped
    maxConnections := toNumber (config.maxConnections.spread maxConnections)
    maxAutoConnections := toNumber (config.maxAutoConnections.spread
      (JsNumber.min maxConnections (JsNumber.max (.ofNat 0) (config.maxAutoConnections.read.getD maxConnections))))
    preferredAutoConnectPeers := config.preferredAutoConnectPeers.read.getD [] }

def isCompressedHex (key : PubkeyHex) : Bool :=
  (key.take 2 = js "02" || key.take 2 = js "03") && key.length = 66 &&
    (key.drop 2).all fun u => isDigit u || (97 ≤ u.toNat && u.toNat ≤ 102)

def toLowerCase (s : UnitString) : UnitString := s.map lower

/-- `preferredRanks` of the constructor. -/
def preferredRanks (preferredPeers : List PubkeyHex) : JsMap PubkeyHex Nat :=
  preferredPeers.zipIdx.foldl (fun ranks e =>
    let normalized := toLowerCase e.1
    if isCompressedHex normalized && (ranks.get normalized).isNone then ranks.set normalized e.2 else ranks) []

structure CachedWebRtcAdvert where
  remoteAddr : PubkeyHex
  createdAtSeconds : Int
  expiresAtMs : Int

/-- The result is `(outbound, inbound)`. -/
def partitionByInitiator (candidates : List CachedWebRtcAdvert) (localXOnlyPubkey : UnitString) (acceptsConnections : Bool) :
    List CachedWebRtcAdvert × List CachedWebRtcAdvert :=
  if acceptsConnections = false then (candidates, [])
  else (candidates.filter fun c => localXOnlyPubkey < c.remoteAddr.drop 2,
    candidates.filter fun c => ¬ localXOnlyPubkey < c.remoteAddr.drop 2)

/-- The comparison of `sort`; the rank of a peer that is not preferred is the largest safe integer. -/
def candidateLe (ranks attempts : JsMap PubkeyHex Nat) (left right : CachedWebRtcAdvert) : Bool :=
  let rank (c : CachedWebRtcAdvert) : Nat := (ranks.get c.remoteAddr).getD (2 ^ 53 - 1)
  let attempt (c : CachedWebRtcAdvert) : Nat := (attempts.get c.remoteAddr).getD 0
  (compare (rank left) (rank right) |>.then (compare (attempt left) (attempt right))
    |>.then (compare right.expiresAtMs left.expiresAtMs)).isLE

def shouldReserveSlot (ranks : JsMap PubkeyHex Nat) (cachedPeers activePeers : List PubkeyHex) : Bool :=
  ranks.any fun e => e.1 ∉ cachedPeers ∧ e.1 ∉ activePeers

/-- `WebRtcAutoConnectPolicy.connectionLimit`. -/
def autoConnectLimit (ranks : JsMap PubkeyHex Nat) (maximum : JsNumber) (reservePreferredSlot : Bool) (remote : PubkeyHex) :
    JsNumber :=
  JsNumber.max (.ofNat 0) (maximum.sub (if reservePreferredSlot ∧ (ranks.get remote).isNone then 1 else 0))

namespace JsNumber
variable {a b : JsNumber}

theorem le_refl (h : a ≠ nan) : a.le a = true := by
  cases a with
  | nan => exact absurd rfl h
  | negInfinity => rfl
  | finite q => exact decide_eq_true (le_rfl : q ≤ q)
  | infinity => rfl

end JsNumber

end Fips
