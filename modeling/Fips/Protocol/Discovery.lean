import Fips.Protocol.Link

/-!
# `protocol/discovery.ts`: lookups

The encoders of LookupRequest, LookupResponse and SessionDatagram. What encodes is decoded to what was encoded,
and what is decoded has the widths of its fields.
-/

namespace Fips
open LittleEndian BinaryReader Exec

def LinkMessageType.FilterAnnounce : Nat := 0x20
def LinkMessageType.LookupResponse : Nat := 0x31
def LinkMessageType.ClientOnly : Nat := 0x52
def LinkMessageType.ClientSupport : Nat := 0x53

structure LookupResponse where
  requestId : Nat
  target : NodeAddr
  pathMtu : Nat
  targetCoords : List NodeAddr
  proof : Bytes
deriving DecidableEq

def encodeLookupCoords (coords : List NodeAddr) : Except String Bytes := do
  if coords.length = 0 ∨ coords.length > 0xffff then throw "lookup coordinates count is out of range"
  let count ← BinaryWriter.u16le coords.length
  return count ++ (← encodeAddrs "lookup coordinate must be 16 bytes" coords)

def encodeLookupRequestPayload (request : LookupRequest) : Except String Bytes := do
  let requestId ← BinaryWriter.u64le request.requestId
  let ttl ← BinaryWriter.u8 request.ttl
  let minMtu ← BinaryWriter.u16le request.minMtu
  let coords ← encodeLookupCoords request.originCoords
  return requestId ++ (request.target ++ (request.origin ++ (ttl ++ (minMtu ++ coords))))

def decodeLookupResponse (payload : Bytes) : Except String LookupResponse :=
  BinaryReader.run (do
    let response : LookupResponse := ⟨← u64le, ← bytes 16, ← u16le, ← decodeLookupCoords, ← bytes 64⟩
    if (← takeRest).length ≠ 0 then throw "trailing LookupResponse bytes"
    return response) payload

def encodeLookupResponsePayload (response : LookupResponse) : Except String Bytes := do
  if response.proof.length ≠ 64 then throw "LookupResponse proof must be 64 bytes"
  let requestId ← BinaryWriter.u64le response.requestId
  let pathMtu ← BinaryWriter.u16le response.pathMtu
  let coords ← encodeLookupCoords response.targetCoords
  return requestId ++ (response.target ++ (pathMtu ++ (coords ++ response.proof)))

def lookupResponseProofBytes (requestId : Nat) (target : NodeAddr) (targetCoords : List NodeAddr) :
    Except String Bytes := do
  let id ← BinaryWriter.u64le requestId
  let coords ← encodeLookupCoords targetCoords
  return id ++ target ++ coords

def encodeSessionDatagram (d : SessionDatagram) : Except String Bytes := do
  if d.srcAddr.length ≠ 16 then throw "src_addr must be 16 bytes"
  if d.destAddr.length ≠ 16 then throw "dest_addr must be 16 bytes"
  let msgType ← BinaryWriter.u8 LinkMessageType.SessionDatagram
  let ttl ← BinaryWriter.u8 (d.ttl % 256)
  let pathMtu ← BinaryWriter.u16le d.pathMtu
  return msgType ++ (ttl ++ (pathMtu ++ (d.srcAddr ++ (d.destAddr ++ d.payload))))

/-! ### Coordinates -/

section
variable {off : Nat} {b payload rest : Bytes} {coords : List NodeAddr}

theorem encodeAddrs_ok_flatten {error : String} (h : encodeAddrs error coords = .ok b) :
    (∀ a ∈ coords, a.length = 16) ∧ b = coords.flatten := by
  have hall := (encodeAddrs_eq_ok h).1
  rw [encodeAddrs_eq hall] at h
  cases h
  exact ⟨hall, rfl⟩

theorem encodeLookupCoords_eq_ok (h : encodeLookupCoords coords = .ok b) :
    0 < coords.length ∧ coords.length < 65536 ∧ (∀ a ∈ coords, a.length = 16) ∧
      b = leBytes 2 coords.length ++ coords.flatten := by
  unfold encodeLookupCoords at h
  split at h
  · cases h
  · rename_i hlen
    obtain ⟨count, hcount, h⟩ := except_bind_eq_ok.1 h
    obtain ⟨addrs, haddrs, h⟩ := except_bind_eq_ok.1 h
    cases h
    obtain ⟨-, rfl⟩ := BinaryWriter.uint_eq_ok hcount
    obtain ⟨hall, rfl⟩ := encodeAddrs_ok_flatten haddrs
    exact ⟨by omega, by omega, hall, rfl⟩

theorem decodeLookupCoords_append (h : ∀ a ∈ coords, a.length = 16) (hpos : 0 < coords.length)
    (hl : coords.length < 65536) :
    decodeLookupCoords ⟨off, leBytes 2 coords.length ++ coords.flatten ++ rest⟩ =
      .ok (coords, ⟨off + 2 + 16 * coords.length, rest⟩) := by
  unfold decodeLookupCoords
  rw [List.append_assoc, bind_of_ok (u16le_append hl)]
  dsimp only
  rw [if_neg (by omega : ¬coords.length = 0)]
  exact readAddrs_append h

theorem decodeLookupCoords_eq_ok {r r' : BinaryReader} (h : decodeLookupCoords r = .ok (coords, r')) :
    0 < coords.length ∧ coords.length < 65536 ∧ (∀ a ∈ coords, a.length = 16) ∧
      r.rest = leBytes 2 coords.length ++ coords.flatten ++ r'.rest := by
  obtain ⟨count, r₁, hcount, h⟩ := bind_eq_ok.1 h
  obtain ⟨hlt, hr, -⟩ := uint_eq_ok hcount
  split at h
  · cases h
  · obtain ⟨rfl, hall, hr₁⟩ := readAddrs_eq_ok h
    exact ⟨by omega, by omega, hall, by rw [hr, hr₁, List.append_assoc]⟩

theorem encodeLookupCoords_eq (h : ∀ a ∈ coords, a.length = 16) (hpos : 0 < coords.length)
    (hl : coords.length < 65536) :
    encodeLookupCoords coords = .ok (leBytes 2 coords.length ++ coords.flatten) := by
  have hlen : ¬(coords.length = 0 ∨ coords.length > 0xffff) := by omega
  rw [encodeLookupCoords, if_neg hlen, BinaryWriter.u16le_of_lt hl, ok_bind, encodeAddrs_eq h]
  rfl

/-! ### LookupRequest -/

/-- A request whose fields have the widths of the wire. -/
structure LookupRequest.Wire (r : LookupRequest) : Prop where
  requestId : r.requestId < 2 ^ 64
  target : r.target.length = 16
  origin : r.origin.length = 16
  ttl : r.ttl < 256
  minMtu : r.minMtu < 65536
  coords : ∀ a ∈ r.originCoords, a.length = 16
  some_coords : 0 < r.originCoords.length
  few_coords : r.originCoords.length < 65536

def LookupRequest.bytes (r : LookupRequest) : Bytes :=
  leBytes 8 r.requestId ++ (r.target ++ (r.origin ++ (leBytes 1 r.ttl ++ (leBytes 2 r.minMtu ++
    (leBytes 2 r.originCoords.length ++ r.originCoords.flatten)))))

theorem LookupRequest.Wire.encode {r : LookupRequest} (h : r.Wire) : encodeLookupRequestPayload r = .ok r.bytes := by
  rw [encodeLookupRequestPayload, BinaryWriter.u64le_of_lt h.requestId, ok_bind, BinaryWriter.u8_of_lt h.ttl, ok_bind,
    BinaryWriter.u16le_of_lt h.minMtu, ok_bind, encodeLookupCoords_eq h.coords h.some_coords h.few_coords]
  rfl

theorem LookupRequest.Wire.decode {r : LookupRequest} (h : r.Wire) : decodeLookupRequest r.bytes = .ok r := by
  refine run_eq_ok.2 ⟨⟨0 + 8 + 16 + 16 + 1 + 2 + 2 + 16 * r.originCoords.length + 0, []⟩, ?_⟩
  have hcoords := @decodeLookupCoords_append (0 + 8 + 16 + 16 + 1 + 2) [] _ h.coords h.some_coords h.few_coords
  rw [List.append_nil] at hcoords
  rw [LookupRequest.bytes, bind_of_ok (u64le_append h.requestId), bind_of_ok (bytes_append h.target),
    bind_of_ok (bytes_append h.origin), bind_of_ok (u8_append h.ttl), bind_of_ok (u16le_append h.minMtu),
    bind_of_ok hcoords, bind_of_ok takeRest_eq]
  rfl

theorem encodeLookupRequestPayload_wire {r : LookupRequest} (ht : r.target.length = 16) (ho : r.origin.length = 16)
    (h : encodeLookupRequestPayload r = .ok b) : r.Wire := by
  obtain ⟨id, hid, h⟩ := except_bind_eq_ok.1 h
  obtain ⟨ttl, httl, h⟩ := except_bind_eq_ok.1 h
  obtain ⟨mtu, hmtu, h⟩ := except_bind_eq_ok.1 h
  obtain ⟨cs, hcs, -⟩ := except_bind_eq_ok.1 h
  obtain ⟨hpos, hlt, hall, -⟩ := encodeLookupCoords_eq_ok hcs
  have hid := (BinaryWriter.uint_eq_ok hid).1
  exact ⟨by omega, ht, ho, (BinaryWriter.uint_eq_ok httl).1, (BinaryWriter.uint_eq_ok hmtu).1, hall, hpos, hlt⟩

theorem decodeLookupRequest_encode {r : LookupRequest} (ht : r.target.length = 16) (ho : r.origin.length = 16)
    (h : encodeLookupRequestPayload r = .ok b) : decodeLookupRequest b = .ok r := by
  have hw := encodeLookupRequestPayload_wire ht ho h
  rw [hw.encode] at h
  cases h
  exact hw.decode

/-- What is accepted is the encoding of what is returned. -/
theorem decodeLookupRequest_bytes {r : LookupRequest} (h : decodeLookupRequest payload = .ok r) :
    r.Wire ∧ payload = r.bytes := by
  obtain ⟨r', h⟩ := run_eq_ok.1 h
  obtain ⟨id, r₁, hid, h⟩ := bind_eq_ok.1 h
  obtain ⟨target, r₂, htarget, h⟩ := bind_eq_ok.1 h
  obtain ⟨origin, r₃, horigin, h⟩ := bind_eq_ok.1 h
  obtain ⟨ttl, r₄, httl, h⟩ := bind_eq_ok.1 h
  obtain ⟨mtu, r₅, hmtu, h⟩ := bind_eq_ok.1 h
  obtain ⟨cs, r₆, hcs, h⟩ := bind_eq_ok.1 h
  obtain ⟨rest, r₇, hrest, h⟩ := bind_eq_ok.1 h
  dsimp only at h
  split at h
  · cases h
  · rename_i htrailing
    cases h
    cases hrest
    have hend := List.length_eq_zero_iff.1 (not_not.1 htrailing)
    obtain ⟨hlt₁, hr₁, -⟩ := uint_eq_ok hid
    obtain ⟨hlen₁, hr₂, -⟩ := bytes_eq_ok htarget
    obtain ⟨hlen₂, hr₃, -⟩ := bytes_eq_ok horigin
    obtain ⟨hlt₂, hr₄, -⟩ := uint_eq_ok httl
    obtain ⟨hlt₃, hr₅, -⟩ := uint_eq_ok hmtu
    obtain ⟨hpos, hlt₄, hall, hr₆⟩ := decodeLookupCoords_eq_ok hcs
    refine ⟨⟨by show id < 2 ^ 64; omega, hlen₁, hlen₂, hlt₂, hlt₃, hall, hpos, hlt₄⟩, ?_⟩
    rw [show payload = _ from hr₁, hr₂, hr₃, hr₄, hr₅, hr₆, hend, List.append_nil]
    rfl

theorem decodeLookupRequest_eq_ok {r : LookupRequest} (h : decodeLookupRequest payload = .ok r) : r.Wire :=
  (decodeLookupRequest_bytes h).1

/-! ### LookupResponse -/

structure LookupResponse.Wire (r : LookupResponse) : Prop where
  requestId : r.requestId < 2 ^ 64
  target : r.target.length = 16
  pathMtu : r.pathMtu < 65536
  coords : ∀ a ∈ r.targetCoords, a.length = 16
  some_coords : 0 < r.targetCoords.length
  few_coords : r.targetCoords.length < 65536
  proof : r.proof.length = 64

def LookupResponse.bytes (r : LookupResponse) : Bytes :=
  leBytes 8 r.requestId ++ (r.target ++ (leBytes 2 r.pathMtu ++
    (leBytes 2 r.targetCoords.length ++ r.targetCoords.flatten ++ r.proof)))

theorem LookupResponse.Wire.encode {r : LookupResponse} (h : r.Wire) : encodeLookupResponsePayload r = .ok r.bytes := by
  rw [encodeLookupResponsePayload, if_neg (not_not.2 h.proof), BinaryWriter.u64le_of_lt h.requestId, ok_bind,
    BinaryWriter.u16le_of_lt h.pathMtu, ok_bind, encodeLookupCoords_eq h.coords h.some_coords h.few_coords]
  rfl

theorem LookupResponse.Wire.decode {r : LookupResponse} (h : r.Wire) : decodeLookupResponse r.bytes = .ok r := by
  refine run_eq_ok.2 ⟨⟨0 + 8 + 16 + 2 + 2 + 16 * r.targetCoords.length + 64 + 0, []⟩, ?_⟩
  rw [LookupResponse.bytes, bind_of_ok (u64le_append h.requestId), bind_of_ok (bytes_append h.target),
    bind_of_ok (u16le_append h.pathMtu), bind_of_ok (decodeLookupCoords_append h.coords h.some_coords h.few_coords),
    bind_of_ok (bytes_all h.proof), bind_of_ok takeRest_eq]
  rfl

theorem encodeLookupResponsePayload_wire {r : LookupResponse} (ht : r.target.length = 16)
    (h : encodeLookupResponsePayload r = .ok b) : r.Wire := by
  unfold encodeLookupResponsePayload at h
  split at h
  · cases h
  · rename_i hproof
    obtain ⟨id, hid, h⟩ := except_bind_eq_ok.1 h
    obtain ⟨mtu, hmtu, h⟩ := except_bind_eq_ok.1 h
    obtain ⟨cs, hcs, -⟩ := except_bind_eq_ok.1 h
    obtain ⟨hpos, hlt, hall, -⟩ := encodeLookupCoords_eq_ok hcs
    have hid := (BinaryWriter.uint_eq_ok hid).1
    exact ⟨by omega, ht, (BinaryWriter.uint_eq_ok hmtu).1, hall, hpos, hlt, not_not.1 hproof⟩

theorem decodeLookupResponse_encode {r : LookupResponse} (ht : r.target.length = 16)
    (h : encodeLookupResponsePayload r = .ok b) : decodeLookupResponse b = .ok r := by
  have hw := encodeLookupResponsePayload_wire ht h
  rw [hw.encode] at h
  cases h
  exact hw.decode

theorem decodeLookupResponse_bytes {r : LookupResponse} (h : decodeLookupResponse payload = .ok r) :
    r.Wire ∧ payload = r.bytes := by
  obtain ⟨r', h⟩ := run_eq_ok.1 h
  obtain ⟨id, r₁, hid, h⟩ := bind_eq_ok.1 h
  obtain ⟨target, r₂, htarget, h⟩ := bind_eq_ok.1 h
  obtain ⟨mtu, r₃, hmtu, h⟩ := bind_eq_ok.1 h
  obtain ⟨cs, r₄, hcs, h⟩ := bind_eq_ok.1 h
  obtain ⟨proof, r₅, hproof, h⟩ := bind_eq_ok.1 h
  obtain ⟨rest, r₆, hrest, h⟩ := bind_eq_ok.1 h
  dsimp only at h
  split at h
  · cases h
  · rename_i htrailing
    cases h
    cases hrest
    have hend := List.length_eq_zero_iff.1 (not_not.1 htrailing)
    obtain ⟨hlt₁, hr₁, -⟩ := uint_eq_ok hid
    obtain ⟨hlen, hr₂, -⟩ := bytes_eq_ok htarget
    obtain ⟨hlt₂, hr₃, -⟩ := uint_eq_ok hmtu
    obtain ⟨hpos, hlt₃, hall, hr₄⟩ := decodeLookupCoords_eq_ok hcs
    obtain ⟨hproof, hr₅, -⟩ := bytes_eq_ok hproof
    refine ⟨⟨by show id < 2 ^ 64; omega, hlen, hlt₂, hall, hpos, hlt₃, hproof⟩, ?_⟩
    rw [show payload = _ from hr₁, hr₂, hr₃, hr₄, hr₅, hend, List.append_nil]
    rfl

theorem decodeLookupResponse_eq_ok {r : LookupResponse} (h : decodeLookupResponse payload = .ok r) :
    r.target.length = 16 ∧ r.pathMtu < 65536 ∧ 0 < r.targetCoords.length ∧ r.proof.length = 64 :=
  let hw := (decodeLookupResponse_bytes h).1
  ⟨hw.target, hw.pathMtu, hw.some_coords, hw.proof⟩

/-! ### SessionDatagram -/

structure SessionDatagram.Wire (d : SessionDatagram) : Prop where
  ttl : d.ttl < 256
  pathMtu : d.pathMtu < 65536
  srcAddr : d.srcAddr.length = 16
  destAddr : d.destAddr.length = 16

/-- What follows the message type. -/
def SessionDatagram.bytes (d : SessionDatagram) : Bytes :=
  leBytes 1 d.ttl ++ (leBytes 2 d.pathMtu ++ (d.srcAddr ++ (d.destAddr ++ d.payload)))

theorem SessionDatagram.Wire.encode {d : SessionDatagram} (h : d.Wire) :
    encodeSessionDatagram d = .ok (leBytes 1 LinkMessageType.SessionDatagram ++ d.bytes) := by
  have hty : BinaryWriter.u8 LinkMessageType.SessionDatagram = .ok _ := BinaryWriter.u8_of_lt (by decide)
  rw [encodeSessionDatagram, Nat.mod_eq_of_lt h.ttl, BinaryWriter.u8_of_lt h.ttl, BinaryWriter.u16le_of_lt h.pathMtu, hty]
  show (if d.srcAddr.length ≠ 16 then _ else _) = _
  rw [if_neg (not_not.2 h.srcAddr)]
  show (if d.destAddr.length ≠ 16 then _ else _) = _
  rw [if_neg (not_not.2 h.destAddr)]
  rfl

theorem SessionDatagram.Wire.decode {d : SessionDatagram} (h : d.Wire) : decodeSessionDatagramPayload d.bytes = .ok d := by
  have hlen : ¬d.bytes.length < SESSION_DATAGRAM_HEADER_SIZE - 1 := by
    simp [SessionDatagram.bytes, SESSION_DATAGRAM_HEADER_SIZE, h.srcAddr, h.destAddr]
    omega
  unfold decodeSessionDatagramPayload
  rw [if_neg hlen]
  refine run_eq_ok.2 ⟨⟨0 + 1 + 2 + 16 + 16 + d.payload.length, []⟩, ?_⟩
  rw [SessionDatagram.bytes, bind_of_ok (u8_append h.ttl), bind_of_ok (u16le_append h.pathMtu),
    bind_of_ok (bytes_append h.srcAddr), bind_of_ok (bytes_append h.destAddr), bind_of_ok takeRest_eq]
  rfl

theorem decodeSessionDatagram_encode {d : SessionDatagram} (httl : d.ttl < 256) (h : encodeSessionDatagram d = .ok b) :
    decodeSessionDatagramPayload b.tail = .ok d := by
  have hw : d.Wire := by
    unfold encodeSessionDatagram at h
    dsimp only at h
    split at h
    · cases h
    · rename_i hsrc
      split at h
      · cases h
      · rename_i hdest
        obtain ⟨ty, -, h⟩ := except_bind_eq_ok.1 h
        obtain ⟨ttl, -, h⟩ := except_bind_eq_ok.1 h
        obtain ⟨mtu, hmtu, -⟩ := except_bind_eq_ok.1 h
        exact ⟨httl, (BinaryWriter.uint_eq_ok hmtu).1, not_not.1 hsrc, not_not.1 hdest⟩
  rw [hw.encode] at h
  cases h
  exact hw.decode

theorem decodeSessionDatagramPayload_bytes {d : SessionDatagram} (h : decodeSessionDatagramPayload payload = .ok d) :
    d.Wire ∧ payload = d.bytes := by
  unfold decodeSessionDatagramPayload at h
  split at h
  · cases h
  · obtain ⟨r', h⟩ := run_eq_ok.1 h
    obtain ⟨ttl, r₁, httl, h⟩ := bind_eq_ok.1 h
    obtain ⟨mtu, r₂, hmtu, h⟩ := bind_eq_ok.1 h
    obtain ⟨src, r₃, hsrc, h⟩ := bind_eq_ok.1 h
    obtain ⟨dest, r₄, hdest, h⟩ := bind_eq_ok.1 h
    obtain ⟨rest, r₅, hrest, h⟩ := bind_eq_ok.1 h
    cases h
    cases hrest
    obtain ⟨hlt₁, hr₁, -⟩ := uint_eq_ok httl
    obtain ⟨hlt₂, hr₂, -⟩ := uint_eq_ok hmtu
    obtain ⟨hlen₁, hr₃, -⟩ := bytes_eq_ok hsrc
    obtain ⟨hlen₂, hr₄, -⟩ := bytes_eq_ok hdest
    refine ⟨⟨hlt₁, hlt₂, hlen₁, hlen₂⟩, ?_⟩
    rw [show payload = _ from hr₁, hr₂, hr₃, hr₄]
    rfl

theorem SessionDatagram.Wire.decode_typed {d : SessionDatagram} (h : d.Wire) :
    decodeSessionDatagram (leBytes 1 LinkMessageType.SessionDatagram ++ d.bytes) = .ok d := by
  have hlen : ¬(leBytes 1 LinkMessageType.SessionDatagram ++ d.bytes).length < SESSION_DATAGRAM_HEADER_SIZE := by
    simp [SessionDatagram.bytes, SESSION_DATAGRAM_HEADER_SIZE, h.srcAddr, h.destAddr]
    omega
  unfold decodeSessionDatagram
  rw [if_neg hlen]
  refine except_bind_eq_ok.2 ⟨d.bytes, run_eq_ok.2 ⟨⟨0 + 1 + d.bytes.length, []⟩, ?_⟩, h.decode⟩
  rw [bind_of_ok (u8_append (by decide)), if_neg (not_not.2 rfl)]
  rfl

theorem decodeSessionDatagram_bytes {d : SessionDatagram} (h : decodeSessionDatagram payload = .ok d) :
    d.Wire ∧ payload = leBytes 1 LinkMessageType.SessionDatagram ++ d.bytes := by
  unfold decodeSessionDatagram at h
  split at h
  · cases h
  · obtain ⟨body, hrun, h⟩ := except_bind_eq_ok.1 h
    obtain ⟨r', hrun⟩ := run_eq_ok.1 hrun
    obtain ⟨msgType, r₁, htype, hrun⟩ := bind_eq_ok.1 hrun
    split at hrun
    · cases hrun
    · rename_i hty
      cases hrun
      obtain ⟨hw, hbody⟩ := decodeSessionDatagramPayload_bytes h
      obtain ⟨-, hr, -⟩ := uint_eq_ok htype
      exact ⟨hw, by rw [show payload = _ from hr, hbody, not_not.1 hty]⟩

theorem decodeSessionDatagram_eq_ok {d : SessionDatagram} (h : decodeSessionDatagramPayload payload = .ok d) :
    d.ttl < 256 ∧ d.pathMtu < 65536 ∧ d.srcAddr.length = 16 ∧ d.destAddr.length = 16 :=
  let hw := (decodeSessionDatagramPayload_bytes h).1
  ⟨hw.ttl, hw.pathMtu, hw.srcAddr, hw.destAddr⟩

end

end Fips
