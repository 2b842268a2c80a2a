import Fips.Protocol.Session

/-!
# `protocol/link.ts`, `protocol/discovery.ts`: messages between adjacent peers

The message types, and the decoders of the two messages whose end points the admission policy looks at.
-/

namespace Fips
open BinaryReader Exec

namespace LinkMessageType

def SessionDatagram : Nat := 0x00
def SenderReport : Nat := 0x01
def ReceiverReport : Nat := 0x02
def LookupRequest : Nat := 0x30
def Disconnect : Nat := 0x50
def Heartbeat : Nat := 0x51

end LinkMessageType

namespace DisconnectReason

def Shutdown : UInt8 := 0x00
def Restart : UInt8 := 0x01

end DisconnectReason

structure SessionDatagram where
  ttl : Nat
  pathMtu : Nat
  srcAddr : NodeAddr
  destAddr : NodeAddr
  payload : Bytes
deriving DecidableEq

def SESSION_DATAGRAM_HEADER_SIZE : Nat := 36

def decodeSessionDatagramPayload (buf : Bytes) : Except String SessionDatagram := do
  if buf.length < SESSION_DATAGRAM_HEADER_SIZE - 1 then
    throw s!"SessionDatagram payload too short: {buf.length} < {SESSION_DATAGRAM_HEADER_SIZE - 1}"
  BinaryReader.run (do return ⟨← u8, ← u16le, ← bytes 16, ← bytes 16, ← takeRest⟩) buf

/-- With the message type in front. -/
def decodeSessionDatagram (buf : Bytes) : Except String SessionDatagram := do
  if buf.length < SESSION_DATAGRAM_HEADER_SIZE then
    throw s!"SessionDatagram too short: {buf.length} < {SESSION_DATAGRAM_HEADER_SIZE}"
  let payload ← BinaryReader.run (do
    let msgType ← u8
    if msgType ≠ LinkMessageType.SessionDatagram then
      throw s!"not a SessionDatagram (msg_type=0x{String.ofList (Nat.toDigits 16 msgType)})"
    takeRest) buf
  decodeSessionDatagramPayload payload

structure LookupRequest where
  requestId : Nat
  target : NodeAddr
  origin : NodeAddr
  ttl : Nat
  minMtu : Nat
  originCoords : List NodeAddr
deriving DecidableEq

def decodeLookupCoords : Read (List NodeAddr) := do
  let count ← u16le
  if count = 0 then throw "lookup coordinates must not be empty"
  readAddrs count

def decodeLookupRequest (payload : Bytes) : Except String LookupRequest :=
  BinaryReader.run (do
    let request : LookupRequest := ⟨← u64le, ← bytes 16, ← bytes 16, ← u8, ← u16le, ← decodeLookupCoords⟩
    if (← takeRest).length ≠ 0 then throw "trailing LookupRequest bytes"
    return request) payload

end Fips
