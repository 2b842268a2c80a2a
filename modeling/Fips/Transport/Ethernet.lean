import Fips.Lib.JsMap
import Fips.Lib.TextCoding
import Fips.Node.PacketProcessor

/-!
# `VirtualEthernetTransport.ts`: FIPS over full Ethernet frames

A started transport sends FIPS packets in data frames and announces its identity in beacons; it
takes frames for its own MAC or for all. The constructor's checks are kept as fields. Strings are
UTF-16 code units where the code encodes them, and hex strings of keys are the bytes they spell.
-/

namespace Fips
open LittleEndian Exec TextCoding

def FIPS_ETHERTYPE : Nat := 0x2121
def ETHERNET_HEADER_LENGTH : Nat := 14
def FIPS_ETHERNET_DATA_HEADER_LENGTH : Nat := 3

def FRAME_TYPE_DATA : UInt8 := 0x00
def FRAME_TYPE_BEACON : UInt8 := 0x01
def DISCOVERY_VERSION : UInt8 := 0x01
def BASE_BEACON_LENGTH : Nat := 34
def DEFAULT_INTERFACE_MTU : Nat := 1500
def BROADCAST_BYTES : Bytes := List.replicate 6 0xff

/-! ## MAC addresses -/

structure Mac where
  bytes : Bytes
  length_eq : bytes.length = 6
deriving DecidableEq

inductive MacValue
  | text (value : String)
  | bytes (value : Bytes)

/-- A part of the pattern `[0-9a-fA-F]{2}`, read base 16. -/
def hexPair : List Char → Option UInt8
  | [a, b] => do return (← hexDigit a) * 16 + (← hexDigit b)
  | _ => none

def parseMac : MacValue → Except String Mac
  | .bytes value => if h : value.length = 6 then .ok ⟨value, h⟩ else .error "MAC address must be 6 bytes"
  | .text value =>
    match (value.toList.splitOn ':').mapM hexPair with
    | some parts => if h : parts.length = 6 then .ok ⟨parts, h⟩ else .error s!"invalid MAC address: {value}"
    | none => .error s!"invalid MAC address: {value}"

/-- `byte.toString(16).padStart(2, "0")`. -/
def hexByte (b : UInt8) : List Char := [(b.toNat / 16).digitChar, (b.toNat % 16).digitChar]

def formatMac (mac : Mac) : String := String.ofList ([':'].intercalate (mac.bytes.map hexByte))

def isZeroMac (mac : Mac) : Bool := mac.bytes.all (· = 0)

/-! ## The transport -/

def integerInRange (value : ℚ) (min max : Nat) (name : String) : Except String Nat :=
  if value.den = 1 ∧ min ≤ value.num ∧ value.num ≤ max then .ok value.num.toNat
  else .error s!"{name} must be an integer from {min} to {max}"

structure VirtualEthernetTransportConfig where
  localMac : MacValue
  interfaceMtu : Option ℚ
  mtu : Option ℚ
  discovery : Option Bool
  discoveryScope : Option (List UInt16)

/-- The 32-byte x-only key of an identity: an x coordinate of the curve. -/
structure XOnlyPubkey (onCurve : Bytes → Bool) where
  bytes : Bytes
  length_eq : bytes.length = 32
  lifts : onCurve (0x02 :: bytes) = true

/-- The fields that the constructor sets. -/
structure EthernetSettings where
  localMac : Mac
  nonzero : isZeroMac localMac = false
  unicast : localMac.bytes.headD 0 &&& 0x01 = 0
  interfaceMtu : Nat
  mtu : Nat
  mtu_le : mtu ≤ interfaceMtu - FIPS_ETHERNET_DATA_HEADER_LENGTH
  mtu_le_u16 : mtu ≤ 0xffff
  discoveryEnabled : Bool
  discoveryScope : Option (List UInt16)
  scope_ne : discoveryScope ≠ some []

def EthernetSettings.new (config : VirtualEthernetTransportConfig) : Except String EthernetSettings := do
  let localMac ← parseMac config.localMac
  if hz : isZeroMac localMac = true ∨ localMac.bytes = BROADCAST_BYTES then
    throw "local MAC must be a nonzero unicast address"
  else if hu : localMac.bytes.headD 0 &&& 0x01 ≠ 0 then throw "local MAC must be unicast"
  else
    let interfaceMtu ← integerInRange (config.interfaceMtu.getD DEFAULT_INTERFACE_MTU)
      (FIPS_ETHERNET_DATA_HEADER_LENGTH + 1) (0xffff + FIPS_ETHERNET_DATA_HEADER_LENGTH) "interfaceMtu"
    let maximumMtu := min (interfaceMtu - FIPS_ETHERNET_DATA_HEADER_LENGTH) 0xffff
    let requestedMtu ← match config.mtu with
      | none => pure maximumMtu
      | some mtu => integerInRange mtu 1 0xffff "mtu"
    return {
      localMac
      nonzero := Bool.eq_false_of_not_eq_true (fun h => hz (.inl h))
      unicast := not_not.1 hu
      interfaceMtu
      mtu := min requestedMtu maximumMtu
      mtu_le := (min_le_right _ _).trans (min_le_left _ _)
      mtu_le_u16 := (min_le_right _ _).trans (min_le_right _ _)
      discoveryEnabled := config.discovery.getD true
      discoveryScope := if config.discoveryScope = some [] then none else config.discoveryScope
      scope_ne := fun h => by
        split at h
        · cases h
        · exact absurd h ‹_› }

structure DiscoveredPeer where
  remoteAddr : TransportAddress
  publicKey : Bytes
  scope : Option (List UInt16)
deriving DecidableEq

/-- What the transport calls or pushes. -/
inductive EthernetEffect
  | onPacket (remoteAddr : TransportAddress) (data : Bytes)
  | discovered (peer : DiscoveredPeer)
deriving DecidableEq

/-- A transport; `ctx` is the identity it was started with. -/
structure VirtualEthernetTransport (onCurve : Bytes → Bool) where
  settings : EthernetSettings
  macByPubkey : JsMap Bytes Mac
  pubkeyByMac : JsMap Mac Bytes
  ctx : Option (XOnlyPubkey onCurve)

namespace VirtualEthernetTransport
variable {onCurve : Bytes → Bool}

def type : String := "ethernet"

def buildEthernetFrame (destination source : Mac) (payload : Bytes) : Bytes :=
  destination.bytes ++ source.bytes
    ++ [UInt8.ofNat (FIPS_ETHERTYPE >>> 8), UInt8.ofNat (FIPS_ETHERTYPE &&& 0xff)] ++ payload

def broadcast : Mac := ⟨BROADCAST_BYTES, rfl⟩

/-- The frame that `send` gives to the port. -/
def send (t : VirtualEthernetTransport onCurve) (addr : TransportAddress) (packet : Bytes) : Except String Bytes := do
  if t.ctx.isNone then throw "virtual Ethernet transport not started"
  if addr.transport ≠ type then throw "wrong transport"
  if packet.length > t.settings.mtu then throw s!"packet {packet.length} exceeds MTU {t.settings.mtu}"
  let destination ← parseMac (.text addr.addr)
  if isZeroMac destination then throw "destination MAC is all zeros"
  let payload := [FRAME_TYPE_DATA, UInt8.ofNat (packet.length &&& 0xff), UInt8.ofNat (packet.length >>> 8)] ++ packet
  return buildEthernetFrame destination t.settings.localMac payload

/-- The frame that `sendBeacon` gives to the port. -/
def sendBeacon (t : VirtualEthernetTransport onCurve) : Option Bytes :=
  match t.ctx with
  | none => none
  | some localIdentity =>
    let scopeBytes := t.settings.discoveryScope.map fun scope => (encode scope).take 0xff
    let payload := [FRAME_TYPE_BEACON, DISCOVERY_VERSION] ++ localIdentity.bytes
      ++ match scopeBytes with
        | some scopeBytes => if scopeBytes.length > 0 then UInt8.ofNat scopeBytes.length :: scopeBytes else []
        | none => []
    some (buildEthernetFrame broadcast t.settings.localMac payload)

def receiveData (t : VirtualEthernetTransport onCurve) (source : Mac) (payload : Bytes) : List EthernetEffect :=
  if payload.length < FIPS_ETHERNET_DATA_HEADER_LENGTH then []
  else
    let payloadLength := (payload.getD 1 0).toNat ||| ((payload.getD 2 0).toNat <<< 8)
    if payloadLength > t.settings.mtu ∨ payloadLength > payload.length - FIPS_ETHERNET_DATA_HEADER_LENGTH then []
    else [.onPacket ⟨type, formatMac source⟩ ((payload.drop FIPS_ETHERNET_DATA_HEADER_LENGTH).take payloadLength)]

/-- `string || undefined`. -/
def nonEmpty (s : List UInt16) : Option (List UInt16) := if s = [] then none else some s

/-- The scope of a beacon, or none for a beacon that is dropped. -/
def beaconScope (payload : Bytes) : Option (Option (List UInt16)) :=
  if payload.length > BASE_BEACON_LENGTH then
    let scopeLength := (payload.getD BASE_BEACON_LENGTH 0).toNat
    if BASE_BEACON_LENGTH + 1 + scopeLength > payload.length then none
    else (decode ((payload.drop (BASE_BEACON_LENGTH + 1)).take scopeLength)).map nonEmpty
  else some none

def receiveBeacon (t : VirtualEthernetTransport onCurve) (localIdentity : XOnlyPubkey onCurve) (source : Mac)
    (payload : Bytes) : VirtualEthernetTransport onCurve × List EthernetEffect :=
  if t.settings.discoveryEnabled = false ∨ payload.length < BASE_BEACON_LENGTH then (t, [])
  else if payload.getD 1 0 ≠ DISCOVERY_VERSION then (t, [])
  else
    match beaconScope payload with
    | none => (t, [])
    | some scope =>
      if t.settings.discoveryScope.isSome ∧ scope ≠ t.settings.discoveryScope then (t, [])
      else
        -- `compressedPubkeyFromXOnly` throws on a key that is no x coordinate of the curve
        let key := (payload.take 34).drop 2
        let publicKey := 0x02 :: key
        if onCurve publicKey = false then (t, [])
        else if key = localIdentity.bytes then (t, [])
        else
          ({ t with
              macByPubkey := t.macByPubkey.set key source
              pubkeyByMac := t.pubkeyByMac.set source publicKey },
            [.discovered ⟨⟨type, formatMac source⟩, publicKey, scope⟩])

def receiveFrame (t : VirtualEthernetTransport onCurve) (frame : Bytes) :
    VirtualEthernetTransport onCurve × List EthernetEffect :=
  match t.ctx with
  | none => (t, [])
  | some localIdentity =>
    if hlow : frame.length < ETHERNET_HEADER_LENGTH + 1 then (t, [])
    else if frame.length > ETHERNET_HEADER_LENGTH + t.settings.interfaceMtu then (t, [])
    else
      let destination := frame.take 6
      let source : Mac := ⟨(frame.drop 6).take 6, by
        rw [List.length_take, List.length_drop]
        simp only [ETHERNET_HEADER_LENGTH] at hlow
        omega⟩
      if source = t.settings.localMac then (t, [])
      else if destination ≠ t.settings.localMac.bytes ∧ destination ≠ BROADCAST_BYTES then (t, [])
      else
        let ethertype := ((frame.getD 12 0).toNat <<< 8) ||| (frame.getD 13 0).toNat
        if ethertype ≠ FIPS_ETHERTYPE then (t, [])
        else
          let payload := frame.drop ETHERNET_HEADER_LENGTH
          if payload.getD 0 0 = FRAME_TYPE_DATA then (t, t.receiveData source payload)
          else if payload.getD 0 0 = FRAME_TYPE_BEACON then t.receiveBeacon localIdentity source payload
          else (t, [])

end VirtualEthernetTransport

end Fips
