import Fips.Codec.Prefix
import Fips.Crypto.Suite

/-!
# `fsp/wire.ts`: FSP records

Established records, their inner packets and `DataPacket`s. A record may carry coordinates between the
header and the ciphertext; the associated data is the header alone.
-/

namespace Fips
open LittleEndian BinaryReader Exec

def FSP_PHASE_ESTABLISHED : Nat := 0x0
def FSP_PHASE_MSG1 : Nat := 0x1
def FSP_PHASE_MSG2 : Nat := 0x2
def FSP_PHASE_MSG3 : Nat := 0x3

def NOISE_XK_MSG1_LEN : Nat := 33
def NOISE_XK_MSG2_LEN : Nat := 57
def NOISE_XK_MSG3_LEN : Nat := 73

def FSP_ESTABLISHED_HEADER_LEN : Nat := 4 + 8
def FSP_AEAD_TAG_LEN : Nat := 16
def FSP_INNER_HEADER_LEN : Nat := 4 + 1 + 1

def FSP_FLAG_CP : Nat := 0x01
def FSP_FLAG_K : Nat := 0x02
def FSP_FLAG_U : Nat := 0x04
def FSP_FLAG_DIRECT_TRANSPORT : Nat := 0x08

def FSP_MSG_DATA : Nat := 0x10
def FSP_MSG_RECEIVER_REPORT : Nat := 0x12
def FSP_MSG_COORDS_WARMUP : Nat := 0x14
def FSP_MSG_ENDPOINT_DATA : Nat := 0x15
def FSP_MSG_TRAVERSAL_OFFER : Nat := 0x16
def FSP_MSG_TRAVERSAL_ANSWER : Nat := 0x17

/-- `(flags & mask) !== 0`. -/
def hasFlag (flags mask : Nat) : Bool := flags &&& mask != 0

def isDirectFspEstablished (buf : Bytes) : Bool :=
  match buf with
  | b₀ :: b₁ :: _ => FSP_ESTABLISHED_HEADER_LEN ≤ buf.length ∧ b₀.toNat / 16 = 0 ∧ b₀.toNat % 16 = FSP_PHASE_ESTABLISHED ∧
      hasFlag b₁.toNat FSP_FLAG_DIRECT_TRANSPORT
  | _ => false

/-- The phase of a handshake frame: `1 | 2 | 3`. -/
inductive XkPhase
  | msg1
  | msg2
  | msg3
deriving DecidableEq

def XkPhase.number : XkPhase → Nat
  | .msg1 => FSP_PHASE_MSG1
  | .msg2 => FSP_PHASE_MSG2
  | .msg3 => FSP_PHASE_MSG3

/-- `XK_MSG_LEN`. -/
def XkPhase.msgLen : XkPhase → Nat
  | .msg1 => NOISE_XK_MSG1_LEN
  | .msg2 => NOISE_XK_MSG2_LEN
  | .msg3 => NOISE_XK_MSG3_LEN

/-- A frame that carries a Noise message alone. -/
structure FspHandshakeFrame where
  phase : XkPhase
  noiseMsg : Bytes
deriving DecidableEq

def encodeFspHandshake (f : FspHandshakeFrame) : Except String Bytes := do
  let expectedLen := f.phase.msgLen
  if f.noiseMsg.length ≠ expectedLen then
    throw s!"XK msg{f.phase.number} must be {expectedLen} bytes, got {f.noiseMsg.length}"
  let header ← encodeCommonPrefix ⟨0, f.phase.number, 0, expectedLen⟩
  return header ++ f.noiseMsg

def decodeFspHandshake (buf : Bytes) : Except String FspHandshakeFrame :=
  BinaryReader.run (do
    let p ← decodeCommonPrefix
    if p.version ≠ 0 then throw "bad FSP version"
    let phase ← match p.phase with
      | 1 => pure XkPhase.msg1
      | 2 => pure XkPhase.msg2
      | 3 => pure XkPhase.msg3
      | phase => throw s!"not an FSP handshake phase: {phase}"
    if p.flags ≠ 0 then throw "FSP handshake flags must be zero"
    let expectedLen := phase.msgLen
    if p.payloadLen ≠ expectedLen then
      throw s!"FSP msg{phase.number} payload_len {p.payloadLen} != {expectedLen}"
    return ⟨phase, ← bytes expectedLen⟩) buf

structure FspEstablished where
  flags : Nat
  counter : Nat
  payloadLen : Nat
  srcCoords : Option (List NodeAddr)
  destCoords : Option (List NodeAddr)
  ciphertext : Bytes
deriving DecidableEq

def encodeFspEstablishedHeader (flags counter payloadLen : Nat) : Except String Bytes := do
  let header ← encodeCommonPrefix ⟨0, FSP_PHASE_ESTABLISHED, flags, payloadLen⟩
  let counter ← BinaryWriter.u64le counter
  return header ++ counter

/-- The entries of a coordinate list, each checked to be a NodeAddr. -/
def encodeAddrs (error : String) : List NodeAddr → Except String Bytes
  | [] => .ok []
  | addr :: rest => do
    if addr.length ≠ 16 then throw error
    return addr ++ (← encodeAddrs error rest)

def encodeOptionalCoords (coords : Option (List NodeAddr)) : Except String Bytes := do
  let coords := coords.getD []
  if coords.length > 0xffff then throw "too many coordinate entries"
  let count ← BinaryWriter.u16le coords.length
  return count ++ (← encodeAddrs "coordinate NodeAddr must be 16 bytes" coords)

/-- `count` NodeAddrs from the front of a buffer long enough for them. -/
def takeAddrs : Nat → Bytes → List NodeAddr
  | 0, _ => []
  | count + 1, buf => buf.take 16 :: takeAddrs count (buf.drop 16)

/-- The coordinates at the front of `buf`, and the number of bytes they take. -/
def decodeOptionalCoords (buf : Bytes) : Except String (Option (List NodeAddr) × Nat) := do
  if buf.length < 2 then throw "FSP coordinate field too short"
  let count := leNat (buf.take 2)
  let len := 2 + count * 16
  if buf.length < len then throw "FSP coordinate entries truncated"
  if count = 0 then return (none, len)
  return (some (takeAddrs count (buf.drop 2)), len)

/-- The coordinates of a record, if its flag is set. -/
def encodeRecordCoords (p : FspEstablished) : Except String Bytes := do
  if hasFlag p.flags FSP_FLAG_CP then
    let src ← encodeOptionalCoords p.srcCoords
    let dest ← encodeOptionalCoords p.destCoords
    return src ++ dest
  else return []

def encodeFspEstablished (p : FspEstablished) : Except String Bytes := do
  if p.ciphertext.length ≠ p.payloadLen + FSP_AEAD_TAG_LEN then
    throw s!"ciphertext length {p.ciphertext.length} != payload_len {p.payloadLen}+tag"
  let header ← encodeFspEstablishedHeader p.flags p.counter p.payloadLen
  let coords ← encodeRecordCoords p
  return header ++ coords ++ p.ciphertext

/-- The coordinates in front of the ciphertext, if the flag is set. -/
def splitCoords (flags : Nat) (rest : Bytes) :
    Except String (Option (List NodeAddr) × Option (List NodeAddr) × Bytes) := do
  if hasFlag flags FSP_FLAG_CP then
    let (src, srcLen) ← decodeOptionalCoords rest
    let (dest, destLen) ← decodeOptionalCoords (rest.drop srcLen)
    return (src, dest, rest.drop (srcLen + destLen))
  else return (none, none, rest)

/-- The checked prefix, the counter and what follows them. -/
def readFspEstablished : Read (CommonPrefix × Nat × Bytes) := do
  let p ← decodeCommonPrefix
  if p.version ≠ 0 then throw "bad FSP version"
  if p.phase ≠ FSP_PHASE_ESTABLISHED then throw "not FSP Established"
  if hasFlag p.flags FSP_FLAG_U then throw "plaintext FSP error frames are not supported here"
  let counter ← u64le
  let rest ← takeRest
  return (p, counter, rest)

def decodeFspEstablished (buf : Bytes) : Except String FspEstablished := do
  if buf.length < FSP_ESTABLISHED_HEADER_LEN + FSP_AEAD_TAG_LEN then
    throw s!"FSP Established too short: {buf.length} < {FSP_ESTABLISHED_HEADER_LEN + FSP_AEAD_TAG_LEN}"
  let (p, counter, rest) ← BinaryReader.run readFspEstablished buf
  let (srcCoords, destCoords, ciphertext) ← splitCoords p.flags rest
  if ciphertext.length ≠ p.payloadLen + FSP_AEAD_TAG_LEN then
    throw s!"FSP payload_len mismatch: header={p.payloadLen}+tag actual={ciphertext.length}"
  return ⟨p.flags, counter, p.payloadLen, srcCoords, destCoords, ciphertext⟩

structure FspInnerPacket where
  timestamp : Nat
  msgType : Nat
  innerFlags : Nat
  payload : Bytes
deriving DecidableEq

def encodeFspInner (p : FspInnerPacket) : Except String Bytes := do
  let timestamp ← BinaryWriter.u32le p.timestamp
  let msgType ← BinaryWriter.u8 p.msgType
  let innerFlags ← BinaryWriter.u8 p.innerFlags
  return timestamp ++ msgType ++ innerFlags ++ p.payload

def decodeFspInner (buf : Bytes) : Except String FspInnerPacket := do
  if buf.length < FSP_INNER_HEADER_LEN then throw "FSP inner packet too short"
  BinaryReader.run (do return ⟨← u32le, ← u8, ← u8, ← takeRest⟩) buf

structure DataPacket where
  srcPort : Nat
  dstPort : Nat
  payload : Bytes
deriving DecidableEq

def encodeDataPacket (p : DataPacket) : Except String Bytes := do
  let srcPort ← BinaryWriter.u16le p.srcPort
  let dstPort ← BinaryWriter.u16le p.dstPort
  return srcPort ++ dstPort ++ p.payload

def decodeDataPacket (buf : Bytes) : Except String DataPacket := do
  if buf.length < 4 then throw "DataPacket too short"
  BinaryReader.run (do return ⟨← u16le, ← u16le, ← takeRest⟩) buf

def peekFspPhase (buf : Bytes) : Except String Nat := peekPhase "empty FSP packet" buf

/-! ### Handshake frames -/

namespace FspHandshakeFrame

/-- The Noise message has the length of its phase. -/
def Wire (f : FspHandshakeFrame) : Prop := f.noiseMsg.length = f.phase.msgLen

def bytes (f : FspHandshakeFrame) : Bytes := prefixBytes f.phase.number 0 f.phase.msgLen ++ f.noiseMsg

/-- The frame ends where its length field says. -/
def Whole (buf : Bytes) : Prop := buf.length = 4 + leNat ((buf.drop 2).take 2)

instance (buf : Bytes) : Decidable (Whole buf) := inferInstanceAs (Decidable (_ = _))

end FspHandshakeFrame

section
variable {f : FspHandshakeFrame} {buf : Bytes}

theorem XkPhase.number_lt (phase : XkPhase) : phase.number < 16 ∧ phase.msgLen < 65536 := by
  cases phase <;> decide

theorem FspHandshakeFrame.Wire.encode (h : f.Wire) : encodeFspHandshake f = .ok f.bytes := by
  obtain ⟨hp, hl⟩ := f.phase.number_lt
  rw [encodeFspHandshake]
  dsimp only
  rw [if_neg (show ¬f.noiseMsg.length ≠ f.phase.msgLen from not_not.2 h), encodeCommonPrefix_eq hp (by decide) hl]
  rfl

/-- What `decodeFspHandshake` does once it knows the phase. -/
def readNoiseMsg (p : CommonPrefix) (phase : XkPhase) : Read FspHandshakeFrame := do
  if p.flags ≠ 0 then throw "FSP handshake flags must be zero"
  let expectedLen := phase.msgLen
  if p.payloadLen ≠ expectedLen then
    throw s!"FSP msg{phase.number} payload_len {p.payloadLen} != {expectedLen}"
  return ⟨phase, ← bytes expectedLen⟩

theorem readNoiseMsg_eq_ok {p : CommonPrefix} {phase : XkPhase} {r r' : BinaryReader}
    (h : readNoiseMsg p phase r = .ok (f, r')) :
    f.phase = phase ∧ p.flags = 0 ∧ p.payloadLen = phase.msgLen ∧ f.noiseMsg.length = phase.msgLen ∧
      r.rest = f.noiseMsg ++ r'.rest := by
  unfold readNoiseMsg at h
  split at h
  · cases h
  rename_i hflags
  dsimp only at h
  split at h
  · cases h
  rename_i hpayloadLen
  obtain ⟨noiseMsg, r₁, h₁, h⟩ := BinaryReader.bind_eq_ok.1 h
  cases h
  obtain ⟨hlen, hr, -⟩ := bytes_eq_ok h₁
  exact ⟨rfl, not_not.1 hflags, not_not.1 hpayloadLen, hlen, hr⟩

theorem FspHandshakeFrame.Wire.decode (h : f.Wire) : decodeFspHandshake f.bytes = .ok f := by
  obtain ⟨hp, hl⟩ := f.phase.number_lt
  refine run_eq_ok.2 ⟨⟨4 + f.phase.msgLen, []⟩, ?_⟩
  rw [FspHandshakeFrame.bytes, bind_of_ok (decodeCommonPrefix_append hp (by decide) hl)]
  have hread : readNoiseMsg ⟨0, f.phase.number, 0, f.phase.msgLen⟩ f.phase ⟨0 + 4, f.noiseMsg⟩ =
      .ok (f, ⟨4 + f.phase.msgLen, []⟩) := by
    unfold readNoiseMsg
    simp only [ne_eq, not_true_eq_false, if_false]
    rw [bind_of_ok (bytes_all h)]
    rfl
  obtain ⟨phase, noiseMsg⟩ := f
  cases phase <;> exact hread

theorem leNat_payloadLen {phase payloadLen : Nat} {rest : Bytes} (h : payloadLen < 65536) :
    leNat (((prefixBytes phase 0 payloadLen ++ rest).drop 2).take 2) = payloadLen := by
  rw [prefixBytes, List.append_assoc, List.drop_left' (by simp), List.take_left' (length_leBytes 2 _)]
  exact @leNat_leBytes 2 _ h

/-- What is accepted starts with the frame returned; what follows the Noise message is not looked at. -/
theorem decodeFspHandshake_bytes (h : decodeFspHandshake buf = .ok f) :
    f.Wire ∧ (FspHandshakeFrame.Whole buf ↔ buf = f.bytes) := by
  obtain ⟨r', h⟩ := run_eq_ok.1 h
  obtain ⟨p, r₁, h₁, h⟩ := BinaryReader.bind_eq_ok.1 h
  dsimp only at h
  split at h
  · cases h
  rename_i hversion
  have hread : ∃ phase : XkPhase, p.phase = phase.number ∧ readNoiseMsg p phase r₁ = .ok (f, r') := by
    generalize p.phase = n at h ⊢
    match n, h with
    | 1, h => exact ⟨.msg1, rfl, h⟩
    | 2, h => exact ⟨.msg2, rfl, h⟩
    | 3, h => exact ⟨.msg3, rfl, h⟩
    | 0, h => cases h
    | n + 4, h => cases h
  obtain ⟨phase, hphase, hread⟩ := hread
  obtain ⟨rfl, hflags, hpayloadLen, hlen, hr⟩ := readNoiseMsg_eq_ok hread
  obtain ⟨-, -, -, -, hr₁⟩ := decodeCommonPrefix_eq_ok h₁
  have hbuf : buf = prefixBytes f.phase.number 0 f.phase.msgLen ++ (f.noiseMsg ++ r'.rest) := by
    rw [show buf = _ from hr₁ (not_not.1 hversion), hphase, hflags, hpayloadLen, hr]
  refine ⟨hlen, ?_⟩
  rw [FspHandshakeFrame.Whole, hbuf, leNat_payloadLen f.phase.number_lt.2, List.length_append, List.length_append, hlen,
    length_prefixBytes]
  constructor
  · intro hwhole
    have hnil : r'.rest = [] := List.length_eq_zero_iff.1 (by omega)
    rw [hnil, List.append_nil]
    rfl
  · intro hwhole
    have := congrArg List.length hwhole
    rw [FspHandshakeFrame.bytes, List.length_append, List.length_append, List.length_append, hlen, length_prefixBytes]
      at this
    omega

end

/-! ### Established records -/

/-- The twelve header bytes of an Established record, which are also its associated data. -/
def fspHeaderBytes (flags counter payloadLen : Nat) : Bytes := prefixBytes 0 flags payloadLen ++ leBytes 8 counter

section
variable {flags counter payloadLen : Nat} {b : Bytes}

@[simp] theorem length_fspHeaderBytes : (fspHeaderBytes flags counter payloadLen).length = 12 := by
  simp [fspHeaderBytes]

theorem encodeFspEstablishedHeader_eq (hf : flags < 256) (hc : counter < 2 ^ 64) (hl : payloadLen < 65536) :
    encodeFspEstablishedHeader flags counter payloadLen = .ok (fspHeaderBytes flags counter payloadLen) := by
  have hp := (@encodeCommonPrefix_eq 0) (by omega) hf hl
  have h₂ : BinaryWriter.u64le counter = .ok (leBytes 8 counter) := (@BinaryWriter.uint_of_lt _ 8) (by omega)
  simp [encodeFspEstablishedHeader, FSP_PHASE_ESTABLISHED, hp, h₂, fspHeaderBytes]

theorem encodeFspEstablishedHeader_eq_ok (hf : flags < 256)
    (h : encodeFspEstablishedHeader flags counter payloadLen = .ok b) :
    counter < 2 ^ 64 ∧ payloadLen < 65536 ∧ b = fspHeaderBytes flags counter payloadLen := by
  obtain ⟨p, hp, h⟩ := except_bind_eq_ok.1 h
  obtain ⟨c, hc, h⟩ := except_bind_eq_ok.1 h
  cases h
  obtain ⟨hl, rfl⟩ := encodeCommonPrefix_eq_ok (by simp [FSP_PHASE_ESTABLISHED]) hf hp
  obtain ⟨hc', rfl⟩ := BinaryWriter.uint_eq_ok hc
  exact ⟨by omega, hl, rfl⟩

/-- A record without coordinates is its header and its ciphertext. -/
theorem decodeFspEstablished_append {ciphertext : Bytes} (hf : flags < 256) (hu : hasFlag flags FSP_FLAG_U = false)
    (hcp : hasFlag flags FSP_FLAG_CP = false) (hc : counter < 2 ^ 64) (hl : payloadLen < 65536)
    (hct : ciphertext.length = payloadLen + 16) :
    decodeFspEstablished (fspHeaderBytes flags counter payloadLen ++ ciphertext) =
      .ok ⟨flags, counter, payloadLen, none, none, ciphertext⟩ := by
  have hp := @decodeCommonPrefix_append 0 0 flags payloadLen (leBytes 8 counter ++ ciphertext) (by omega) hf hl
  have hlen : ¬ (fspHeaderBytes flags counter payloadLen ++ ciphertext).length < 28 := by
    simp [hct]; omega
  have hrun : BinaryReader.run readFspEstablished (fspHeaderBytes flags counter payloadLen ++ ciphertext) =
      .ok (⟨0, 0, flags, payloadLen⟩, counter, ciphertext) := by
    refine run_eq_ok.2 ⟨⟨12 + ciphertext.length, []⟩, ?_⟩
    rw [readFspEstablished, fspHeaderBytes, List.append_assoc, bind_of_ok hp]
    simp only [FSP_PHASE_ESTABLISHED, ne_eq, not_true_eq_false, if_false, hu, Bool.false_eq_true]
    rw [bind_of_ok (u64le_append hc), bind_of_ok takeRest_eq]
    rfl
  simp only [decodeFspEstablished, FSP_ESTABLISHED_HEADER_LEN, FSP_AEAD_TAG_LEN, hlen, if_false, hrun, ok_bind,
    splitCoords, hcp, Bool.false_eq_true, hct, pure_eq_ok, ne_eq, not_true_eq_false]

end

/-! ### Coordinates -/

/-- A list of coordinates on the wire. -/
def coordsBytes (coords : List NodeAddr) : Bytes := leBytes 2 coords.length ++ coords.flatten

/-- What the decoder returns for a list of coordinates: an empty one is absent. -/
def presentCoords : List NodeAddr → Option (List NodeAddr)
  | [] => none
  | coords => some coords

@[simp] theorem presentCoords_getD (coords : List NodeAddr) : (presentCoords coords).getD [] = coords := by
  cases coords <;> rfl

/-- Coordinates a record can carry. -/
structure CoordList (coords : List NodeAddr) : Prop where
  addrs : ∀ a ∈ coords, a.length = 16
  count : coords.length < 65536

section
variable {coords : List NodeAddr} {rest : Bytes}

theorem length_flatten_addrs (h : ∀ a ∈ coords, a.length = 16) : coords.flatten.length = 16 * coords.length := by
  induction coords with
  | nil => rfl
  | cons a coords ih =>
    simp [h a (by simp), ih fun b hb => h b (by simp [hb])]
    omega

theorem encodeAddrs_eq {error : String} (h : ∀ a ∈ coords, a.length = 16) :
    encodeAddrs error coords = .ok coords.flatten := by
  induction coords with
  | nil => rfl
  | cons a coords ih =>
    have ha : a.length = 16 := h a (by simp)
    simp [encodeAddrs, ha, ih fun b hb => h b (by simp [hb])]

theorem CoordList.length_bytes (h : CoordList coords) : (coordsBytes coords).length = 2 + 16 * coords.length := by
  rw [coordsBytes, List.length_append, length_leBytes, length_flatten_addrs h.addrs]

theorem CoordList.encode {o : Option (List NodeAddr)} (h : CoordList (o.getD [])) :
    encodeOptionalCoords o = .ok (coordsBytes (o.getD [])) := by
  have hcount := h.count
  rw [encodeOptionalCoords, if_neg (by omega), BinaryWriter.u16le_of_lt hcount, encodeAddrs_eq h.addrs]
  rfl

theorem takeAddrs_append (h : ∀ a ∈ coords, a.length = 16) : takeAddrs coords.length (coords.flatten ++ rest) = coords := by
  induction coords with
  | nil => rfl
  | cons a coords ih =>
    obtain ⟨ha, hcoords⟩ := List.forall_mem_cons.1 h
    rw [List.length_cons, takeAddrs, List.flatten_cons, List.append_assoc, List.take_left' ha, List.drop_left' ha,
      ih hcoords]

/-- `count` addresses split a buffer long enough for them. -/
theorem takeAddrs_spec (count : Nat) {buf : Bytes} (h : 16 * count ≤ buf.length) :
    (takeAddrs count buf).length = count ∧ (∀ a ∈ takeAddrs count buf, a.length = 16) ∧
      (takeAddrs count buf).flatten ++ buf.drop (16 * count) = buf := by
  induction count generalizing buf with
  | zero => exact ⟨rfl, nofun, rfl⟩
  | succ count ih =>
    obtain ⟨hlen, hall, hflat⟩ := @ih (buf.drop 16) (by rw [List.length_drop]; omega)
    refine ⟨by rw [takeAddrs, List.length_cons, hlen], List.forall_mem_cons.2 ⟨?_, hall⟩, ?_⟩
    · rw [List.length_take]
      omega
    · rw [List.drop_drop, show 16 + 16 * count = 16 * (count + 1) by omega] at hflat
      rw [takeAddrs, List.flatten_cons, List.append_assoc, hflat, List.take_append_drop]

theorem CoordList.decode (h : CoordList coords) :
    decodeOptionalCoords (coordsBytes coords ++ rest) = .ok (presentCoords coords, (coordsBytes coords).length) := by
  have hcount : leNat ((coordsBytes coords ++ rest).take 2) = coords.length := by
    rw [coordsBytes, List.append_assoc, List.take_left' (length_leBytes _ _)]
    exact @leNat_leBytes 2 _ h.count
  have hlen : (coordsBytes coords ++ rest).length = 2 + 16 * coords.length + rest.length := by
    rw [List.length_append, h.length_bytes]
  rw [decodeOptionalCoords, hcount, hlen, h.length_bytes, if_neg (by omega), if_neg (by omega)]
  cases coords with
  | nil => rfl
  | cons a coords =>
    rw [if_neg (by simp), coordsBytes, List.append_assoc, List.drop_left' (length_leBytes _ _),
      takeAddrs_append h.addrs, Nat.mul_comm]
    rfl

/-- The buffer starts with the coordinates returned, which take the bytes counted. -/
theorem decodeOptionalCoords_eq_ok {buf : Bytes} {o : Option (List NodeAddr)} {len : Nat}
    (h : decodeOptionalCoords buf = .ok (o, len)) :
    CoordList (o.getD []) ∧ o = presentCoords (o.getD []) ∧ buf = coordsBytes (o.getD []) ++ buf.drop len := by
  unfold decodeOptionalCoords at h
  split at h
  · cases h
  rename_i htwo
  dsimp only at h
  split at h
  · cases h
  rename_i hlong
  have htake : (buf.take 2).length = 2 := by
    rw [List.length_take]
    omega
  have hlt := leNat_lt (buf.take 2)
  rw [htake] at hlt
  have hcount : leBytes 2 (leNat (buf.take 2)) = buf.take 2 := leBytes_of_length htake
  split at h
  · rename_i hzero
    cases h
    refine ⟨⟨nofun, by decide⟩, rfl, ?_⟩
    rw [hzero] at hcount ⊢
    show buf = leBytes 2 0 ++ [] ++ buf.drop 2
    rw [hcount, List.append_nil, List.take_append_drop]
  · rename_i hne
    cases h
    obtain ⟨hlen, hall, hflat⟩ := @takeAddrs_spec (leNat (buf.take 2)) (buf.drop 2) (by rw [List.length_drop]; omega)
    refine ⟨⟨hall, ?_⟩, ?_, ?_⟩
    · show (takeAddrs _ _).length < 65536
      rw [hlen]
      exact hlt
    · show some _ = presentCoords (takeAddrs _ _)
      cases htake : takeAddrs (leNat (buf.take 2)) (buf.drop 2) with
      | nil =>
        rw [htake] at hlen
        exact absurd hlen.symm hne
      | cons a rest => rfl
    · show buf = coordsBytes (takeAddrs _ _) ++ buf.drop _
      rw [coordsBytes, hlen, hcount, List.append_assoc, Nat.mul_comm, ← List.drop_drop, hflat, List.take_append_drop]

end

/-! ### Records, with or without coordinates -/

/-- A record an encoder and a decoder agree on: without the flag there is nothing to say of coordinates. -/
structure FspEstablished.Wire (p : FspEstablished) : Prop where
  flags : p.flags < 256
  unflagged : hasFlag p.flags FSP_FLAG_U = false
  counter : p.counter < 2 ^ 64
  payloadLen : p.payloadLen < 65536
  ciphertext : p.ciphertext.length = p.payloadLen + 16
  src : CoordList (p.srcCoords.getD [])
  dest : CoordList (p.destCoords.getD [])
  absent : hasFlag p.flags FSP_FLAG_CP = false → p.srcCoords.getD [] = [] ∧ p.destCoords.getD [] = []

/-- An empty list of coordinates is as good as none. -/
def FspEstablished.normal (p : FspEstablished) : FspEstablished :=
  { p with srcCoords := presentCoords (p.srcCoords.getD []), destCoords := presentCoords (p.destCoords.getD []) }

/-- The coordinates between the header and the ciphertext. -/
def FspEstablished.coordsPart (p : FspEstablished) : Bytes :=
  if hasFlag p.flags FSP_FLAG_CP then coordsBytes (p.srcCoords.getD []) ++ coordsBytes (p.destCoords.getD []) else []

def FspEstablished.bytes (p : FspEstablished) : Bytes :=
  fspHeaderBytes p.flags p.counter p.payloadLen ++ p.coordsPart ++ p.ciphertext

section
variable {p : FspEstablished}

theorem FspEstablished.Wire.encode (h : p.Wire) : encodeFspEstablished p = .ok p.bytes := by
  have hcoords : encodeRecordCoords p = .ok p.coordsPart := by
    unfold encodeRecordCoords coordsPart
    split
    · rw [h.src.encode, h.dest.encode]
      rfl
    · rfl
  have hct : ¬p.ciphertext.length ≠ p.payloadLen + FSP_AEAD_TAG_LEN := not_not.2 h.ciphertext
  rw [encodeFspEstablished, if_neg hct, encodeFspEstablishedHeader_eq h.flags h.counter h.payloadLen, hcoords]
  rfl

theorem FspEstablished.Wire.split (h : p.Wire) :
    splitCoords p.flags (p.coordsPart ++ p.ciphertext) = .ok (p.normal.srcCoords, p.normal.destCoords, p.ciphertext) := by
  unfold splitCoords coordsPart
  split
  · rw [List.append_assoc, h.src.decode]
    show (decodeOptionalCoords (List.drop _ _) >>= _) = _
    rw [List.drop_left, h.dest.decode]
    show Except.ok (_, _, List.drop _ _) = _
    rw [← List.drop_drop, List.drop_left, List.drop_left]
    rfl
  · rename_i hcp
    obtain ⟨hsrc, hdest⟩ := h.absent (Bool.eq_false_iff.2 hcp)
    simp only [normal, hsrc, hdest]
    rfl

theorem readFspEstablished_append {flags counter payloadLen : Nat} {rest : Bytes} (hf : flags < 256)
    (hu : hasFlag flags FSP_FLAG_U = false) (hc : counter < 2 ^ 64) (hl : payloadLen < 65536) :
    BinaryReader.run readFspEstablished (fspHeaderBytes flags counter payloadLen ++ rest) =
      .ok (⟨0, 0, flags, payloadLen⟩, counter, rest) := by
  have hp := @decodeCommonPrefix_append 0 0 flags payloadLen (leBytes 8 counter ++ rest) (by omega) hf hl
  refine run_eq_ok.2 ⟨⟨12 + rest.length, []⟩, ?_⟩
  rw [readFspEstablished, fspHeaderBytes, List.append_assoc, bind_of_ok hp]
  simp only [FSP_PHASE_ESTABLISHED, ne_eq, not_true_eq_false, if_false, hu, Bool.false_eq_true]
  rw [bind_of_ok (u64le_append hc), bind_of_ok takeRest_eq]
  rfl

theorem FspEstablished.Wire.decode (h : p.Wire) : decodeFspEstablished p.bytes = .ok p.normal := by
  have hlen : ¬p.bytes.length < FSP_ESTABLISHED_HEADER_LEN + FSP_AEAD_TAG_LEN := by
    rw [FspEstablished.bytes, List.length_append, List.length_append, length_fspHeaderBytes, h.ciphertext,
      FSP_ESTABLISHED_HEADER_LEN, FSP_AEAD_TAG_LEN]
    omega
  have hct : ¬p.ciphertext.length ≠ p.payloadLen + FSP_AEAD_TAG_LEN := not_not.2 h.ciphertext
  rw [decodeFspEstablished, if_neg hlen, FspEstablished.bytes, List.append_assoc,
    readFspEstablished_append h.flags h.unflagged h.counter h.payloadLen]
  simp only [ok_bind, h.split, if_neg hct]
  rfl

theorem readFspEstablished_eq_ok {buf rest : Bytes} {c : CommonPrefix} {counter : Nat}
    (h : BinaryReader.run readFspEstablished buf = .ok (c, counter, rest)) :
    c.flags < 256 ∧ hasFlag c.flags FSP_FLAG_U = false ∧ counter < 2 ^ 64 ∧ c.payloadLen < 65536 ∧
      buf = fspHeaderBytes c.flags counter c.payloadLen ++ rest := by
  obtain ⟨r', h⟩ := run_eq_ok.1 h
  obtain ⟨c', r₁, h₁, h⟩ := BinaryReader.bind_eq_ok.1 h
  by_cases hv : c'.version = 0
  swap
  · simp only [hv, ne_eq, not_false_eq_true, if_true] at h; cases h
  by_cases hph : c'.phase = FSP_PHASE_ESTABLISHED
  swap
  · simp only [hv, hph, ne_eq, not_true_eq_false, if_false, not_false_eq_true, if_true] at h; cases h
  cases hu : hasFlag c'.flags FSP_FLAG_U with
  | true => simp only [hv, hph, hu, ne_eq, not_true_eq_false, if_false, if_true] at h; cases h
  | false =>
  simp only [hv, hph, hu, ne_eq, not_true_eq_false, if_false, Bool.false_eq_true] at h
  obtain ⟨n, r₂, h₂, h⟩ := BinaryReader.bind_eq_ok.1 h
  obtain ⟨ct, r₃, h₃, h⟩ := BinaryReader.bind_eq_ok.1 h
  cases h
  cases h₃
  obtain ⟨-, hf, hl, -, hbuf⟩ := decodeCommonPrefix_eq_ok h₁
  obtain ⟨hlt, hr₂, -⟩ := uint_eq_ok h₂
  refine ⟨hf, hu, by omega, hl, ?_⟩
  rw [show buf = _ from hbuf hv, hph, hr₂, fspHeaderBytes, List.append_assoc]
  rfl

theorem splitCoords_eq_ok {flags : Nat} {rest ciphertext : Bytes} {src dest : Option (List NodeAddr)}
    (h : splitCoords flags rest = .ok (src, dest, ciphertext)) :
    CoordList (src.getD []) ∧ CoordList (dest.getD []) ∧ src = presentCoords (src.getD []) ∧
      dest = presentCoords (dest.getD []) ∧ (hasFlag flags FSP_FLAG_CP = false → src = none ∧ dest = none) ∧
      rest = (if hasFlag flags FSP_FLAG_CP then coordsBytes (src.getD []) ++ coordsBytes (dest.getD []) else []) ++
        ciphertext := by
  unfold splitCoords at h
  split at h
  · rename_i hcp
    obtain ⟨⟨o, srcLen⟩, hsrc, h⟩ := except_bind_eq_ok.1 h
    obtain ⟨⟨o', destLen⟩, hdest, h⟩ := except_bind_eq_ok.1 h
    cases h
    obtain ⟨hfit, hpresent, hrest⟩ := decodeOptionalCoords_eq_ok hsrc
    obtain ⟨hfit', hpresent', hrest'⟩ := decodeOptionalCoords_eq_ok hdest
    refine ⟨hfit, hfit', hpresent, hpresent', fun h => absurd hcp (by rw [h]; decide), ?_⟩
    rw [if_pos hcp, List.append_assoc, ← List.drop_drop, ← hrest', ← hrest]
  · rename_i hcp
    cases h
    have hfit : CoordList [] := ⟨nofun, by decide⟩
    exact ⟨hfit, hfit, rfl, rfl, fun _ => ⟨rfl, rfl⟩, by rw [if_neg hcp]; rfl⟩

/-- An accepted record is its header, its coordinates and its ciphertext, byte for byte. -/
theorem decodeFspEstablished_bytes {buf : Bytes} {est : FspEstablished} (h : decodeFspEstablished buf = .ok est) :
    est.Wire ∧ est.normal = est ∧ buf = est.bytes := by
  unfold decodeFspEstablished at h
  split at h
  · cases h
  obtain ⟨⟨c, counter, rest⟩, hr, h⟩ := except_bind_eq_ok.1 h
  obtain ⟨⟨src, dest, ct⟩, hs, h⟩ := except_bind_eq_ok.1 h
  dsimp only at h
  split at h
  · cases h
  rename_i hct
  cases h
  obtain ⟨hf, hu, hc, hl, hbuf⟩ := readFspEstablished_eq_ok hr
  obtain ⟨hsrc, hdest, hps, hpd, habsent, hrest⟩ := splitCoords_eq_ok hs
  refine ⟨⟨hf, hu, hc, hl, not_not.1 hct, hsrc, hdest, fun hcp => ?_⟩, ?_, ?_⟩
  · obtain ⟨rfl, rfl⟩ := habsent hcp
    exact ⟨rfl, rfl⟩
  · rw [FspEstablished.normal, ← hps, ← hpd]
  · rw [hbuf, hrest, FspEstablished.bytes, FspEstablished.coordsPart, List.append_assoc]

/-- What an accepted record says of its fields. -/
theorem decodeFspEstablished_eq_ok {buf : Bytes} {est : FspEstablished} (h : decodeFspEstablished buf = .ok est) :
    est.flags < 256 ∧ est.counter < 2 ^ 64 ∧ est.payloadLen < 65536 ∧
      est.ciphertext.length = est.payloadLen + 16 ∧ peekFspPhase buf = .ok FSP_PHASE_ESTABLISHED := by
  obtain ⟨hw, -, rfl⟩ := decodeFspEstablished_bytes h
  exact ⟨hw.flags, hw.counter, hw.payloadLen, hw.ciphertext, rfl⟩

end

/-! ### Inner packets and data packets -/

theorem encodeFspInner_eq_ok {p : FspInnerPacket} {b : Bytes} (h : encodeFspInner p = .ok b) :
    p.timestamp < 2 ^ 32 ∧ p.msgType < 256 ∧ p.innerFlags < 256 ∧
      b = leBytes 4 p.timestamp ++ leBytes 1 p.msgType ++ leBytes 1 p.innerFlags ++ p.payload := by
  obtain ⟨t, ht, h⟩ := except_bind_eq_ok.1 h
  obtain ⟨m, hm, h⟩ := except_bind_eq_ok.1 h
  obtain ⟨f, hf, h⟩ := except_bind_eq_ok.1 h
  cases h
  obtain ⟨ht', rfl⟩ := BinaryWriter.uint_eq_ok ht
  obtain ⟨hm', rfl⟩ := BinaryWriter.uint_eq_ok hm
  obtain ⟨hf', rfl⟩ := BinaryWriter.uint_eq_ok hf
  exact ⟨by omega, by omega, by omega, rfl⟩

theorem decodeFspInner_encode {p : FspInnerPacket} {b : Bytes} (h : encodeFspInner p = .ok b) :
    decodeFspInner b = .ok p := by
  obtain ⟨ht, hm, hf, rfl⟩ := encodeFspInner_eq_ok h
  have hlen : ¬ (leBytes 4 p.timestamp ++ leBytes 1 p.msgType ++ leBytes 1 p.innerFlags ++ p.payload).length < 6 := by
    simp; omega
  simp only [decodeFspInner, FSP_INNER_HEADER_LEN, hlen, if_false]
  refine run_eq_ok.2 ⟨⟨6 + p.payload.length, []⟩, ?_⟩
  rw [List.append_assoc, List.append_assoc, bind_of_ok (u32le_append ht), bind_of_ok (u8_append hm),
    bind_of_ok (u8_append hf), bind_of_ok takeRest_eq]
  rfl

theorem decodeFspInner_bytes {buf : Bytes} {p : FspInnerPacket} (h : decodeFspInner buf = .ok p) :
    p.timestamp < 2 ^ 32 ∧ p.msgType < 256 ∧ p.innerFlags < 256 ∧
      buf = leBytes 4 p.timestamp ++ leBytes 1 p.msgType ++ leBytes 1 p.innerFlags ++ p.payload := by
  unfold decodeFspInner at h
  split at h
  · cases h
  obtain ⟨r', h⟩ := run_eq_ok.1 h
  obtain ⟨t, r₁, h₁, h⟩ := BinaryReader.bind_eq_ok.1 h
  obtain ⟨m, r₂, h₂, h⟩ := BinaryReader.bind_eq_ok.1 h
  obtain ⟨f, r₃, h₃, h⟩ := BinaryReader.bind_eq_ok.1 h
  obtain ⟨rest, r₄, h₄, h⟩ := BinaryReader.bind_eq_ok.1 h
  cases h
  cases h₄
  obtain ⟨hlt₁, hr₁, -⟩ := uint_eq_ok h₁
  obtain ⟨hlt₂, hr₂, -⟩ := uint_eq_ok h₂
  obtain ⟨hlt₃, hr₃, -⟩ := uint_eq_ok h₃
  refine ⟨by omega, hlt₂, hlt₃, ?_⟩
  rw [show buf = _ from hr₁, hr₂, hr₃]
  simp only [List.append_assoc]

/-- Fields that fit their places. -/
structure FspInnerPacket.Wire (p : FspInnerPacket) : Prop where
  timestamp : p.timestamp < 2 ^ 32
  msgType : p.msgType < 256
  innerFlags : p.innerFlags < 256

/-- Ports that fit their places. -/
structure DataPacket.Wire (p : DataPacket) : Prop where
  srcPort : p.srcPort < 65536
  dstPort : p.dstPort < 65536

def DataPacket.bytes (p : DataPacket) : Bytes := leBytes 2 p.srcPort ++ (leBytes 2 p.dstPort ++ p.payload)

theorem DataPacket.Wire.encode {p : DataPacket} (h : p.Wire) : encodeDataPacket p = .ok p.bytes := by
  rw [encodeDataPacket, BinaryWriter.u16le_of_lt h.srcPort, BinaryWriter.u16le_of_lt h.dstPort, DataPacket.bytes,
    ← List.append_assoc]
  rfl

theorem DataPacket.Wire.decode {p : DataPacket} (h : p.Wire) : decodeDataPacket p.bytes = .ok p := by
  have hlen : ¬p.bytes.length < 4 := by
    simp [DataPacket.bytes]
    omega
  rw [decodeDataPacket, if_neg hlen]
  refine run_eq_ok.2 ⟨⟨0 + 2 + 2 + p.payload.length, []⟩, ?_⟩
  rw [DataPacket.bytes, bind_of_ok (u16le_append h.srcPort), bind_of_ok (u16le_append h.dstPort),
    bind_of_ok takeRest_eq]
  rfl

theorem decodeDataPacket_bytes {buf : Bytes} {p : DataPacket} (h : decodeDataPacket buf = .ok p) :
    p.Wire ∧ buf = p.bytes := by
  unfold decodeDataPacket at h
  split at h
  · cases h
  obtain ⟨r', h⟩ := run_eq_ok.1 h
  obtain ⟨src, r₁, h₁, h⟩ := BinaryReader.bind_eq_ok.1 h
  obtain ⟨dst, r₂, h₂, h⟩ := BinaryReader.bind_eq_ok.1 h
  obtain ⟨rest, r₃, h₃, h⟩ := BinaryReader.bind_eq_ok.1 h
  cases h
  cases h₃
  obtain ⟨hlt₁, hr₁, -⟩ := uint_eq_ok h₁
  obtain ⟨hlt₂, hr₂, -⟩ := uint_eq_ok h₂
  exact ⟨⟨hlt₁, hlt₂⟩, by rw [show buf = _ from hr₁, hr₂]; rfl⟩

end Fips
