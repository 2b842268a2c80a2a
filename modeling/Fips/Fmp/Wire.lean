import Fips.Codec.Prefix

/-!
# `fmp/wire.ts`: FMP packets

Encoders and decoders of Msg1, Msg2, Established and the inner packet. For each pair, one lemma gives
the exact bytes of the encoder and one says that a decoder only accepts those bytes.
-/

namespace Fips
open LittleEndian BinaryReader Exec

def FMP_PHASE_ESTABLISHED : Nat := 0x0
def FMP_PHASE_MSG1 : Nat := 0x1
def FMP_PHASE_MSG2 : Nat := 0x2

def NOISE_IK_MSG1_LEN : Nat := 106
def NOISE_IK_MSG2_LEN : Nat := 57
def FMP_MSG1_TOTAL_LEN : Nat := 4 + 4 + NOISE_IK_MSG1_LEN
def FMP_MSG2_TOTAL_LEN : Nat := 4 + 4 + 4 + NOISE_IK_MSG2_LEN
def FMP_ESTABLISHED_HEADER_LEN : Nat := 4 + 4 + 8
def FMP_AEAD_TAG_LEN : Nat := 16

def FMP_INNER_DATA : Nat := 0x00
def FMP_INNER_KEEPALIVE : Nat := 0x51

structure FmpMsg1 where
  senderIdx : Nat
  noiseMsg1 : Bytes
deriving DecidableEq

def encodeFmpMsg1 (m : FmpMsg1) : Except String Bytes := do
  if m.noiseMsg1.length ≠ NOISE_IK_MSG1_LEN then throw s!"noise msg1 must be {NOISE_IK_MSG1_LEN} bytes"
  let header ← encodeCommonPrefix ⟨0, FMP_PHASE_MSG1, 0, 4 + NOISE_IK_MSG1_LEN⟩
  let senderIdx ← BinaryWriter.u32le m.senderIdx
  return header ++ senderIdx ++ m.noiseMsg1

def decodeFmpMsg1 (buf : Bytes) : Except String FmpMsg1 := do
  if buf.length ≠ FMP_MSG1_TOTAL_LEN then
    throw s!"FMP Msg1 must be {FMP_MSG1_TOTAL_LEN} bytes, got {buf.length}"
  BinaryReader.run (do
    let p ← decodeCommonPrefix
    if p.version ≠ 0 then throw "bad FMP version"
    if p.phase ≠ FMP_PHASE_MSG1 then throw "not FMP Msg1"
    if p.flags ≠ 0 then throw "FMP Msg1 flags must be zero"
    if p.payloadLen ≠ 4 + NOISE_IK_MSG1_LEN then throw "bad FMP Msg1 payload_len"
    let senderIdx ← u32le
    let noiseMsg1 ← bytes NOISE_IK_MSG1_LEN
    return ⟨senderIdx, noiseMsg1⟩) buf

structure FmpMsg2 where
  senderIdx : Nat
  receiverIdx : Nat
  noiseMsg2 : Bytes
deriving DecidableEq

def encodeFmpMsg2 (m : FmpMsg2) : Except String Bytes := do
  if m.noiseMsg2.length ≠ NOISE_IK_MSG2_LEN then throw s!"noise msg2 must be {NOISE_IK_MSG2_LEN} bytes"
  let header ← encodeCommonPrefix ⟨0, FMP_PHASE_MSG2, 0, 4 + 4 + NOISE_IK_MSG2_LEN⟩
  let senderIdx ← BinaryWriter.u32le m.senderIdx
  let receiverIdx ← BinaryWriter.u32le m.receiverIdx
  return header ++ senderIdx ++ receiverIdx ++ m.noiseMsg2

def decodeFmpMsg2 (buf : Bytes) : Except String FmpMsg2 := do
  if buf.length ≠ FMP_MSG2_TOTAL_LEN then
    throw s!"FMP Msg2 must be {FMP_MSG2_TOTAL_LEN} bytes, got {buf.length}"
  BinaryReader.run (do
    let p ← decodeCommonPrefix
    if p.version ≠ 0 then throw "bad FMP version"
    if p.phase ≠ FMP_PHASE_MSG2 then throw "not FMP Msg2"
    if p.flags ≠ 0 then throw "FMP Msg2 flags must be zero"
    if p.payloadLen ≠ 4 + 4 + NOISE_IK_MSG2_LEN then throw "bad FMP Msg2 payload_len"
    let senderIdx ← u32le
    let receiverIdx ← u32le
    let noiseMsg2 ← bytes NOISE_IK_MSG2_LEN
    return ⟨senderIdx, receiverIdx, noiseMsg2⟩) buf

structure FmpEstablished where
  flags : Nat
  receiverIdx : Nat
  counter : Nat
  payloadLen : Nat
  ciphertext : Bytes
deriving DecidableEq

def encodeFmpEstablishedHeader (flags receiverIdx counter payloadLen : Nat) : Except String Bytes := do
  let header ← encodeCommonPrefix ⟨0, FMP_PHASE_ESTABLISHED, flags, payloadLen⟩
  let receiverIdx ← BinaryWriter.u32le receiverIdx
  let counter ← BinaryWriter.u64le counter
  return header ++ receiverIdx ++ counter

def encodeFmpEstablished (p : FmpEstablished) : Except String Bytes := do
  let header ← encodeFmpEstablishedHeader p.flags p.receiverIdx p.counter p.payloadLen
  return header ++ p.ciphertext

def decodeFmpEstablished (buf : Bytes) : Except String FmpEstablished := do
  if buf.length < FMP_ESTABLISHED_HEADER_LEN + FMP_AEAD_TAG_LEN then
    throw s!"FMP Established too short: {buf.length} < {FMP_ESTABLISHED_HEADER_LEN + FMP_AEAD_TAG_LEN}"
  BinaryReader.run (do
    let p ← decodeCommonPrefix
    if p.version ≠ 0 then throw "bad FMP version"
    if p.phase ≠ FMP_PHASE_ESTABLISHED then throw "not FMP Established"
    let receiverIdx ← u32le
    let counter ← u64le
    let ciphertext ← takeRest
    if ciphertext.length ≠ p.payloadLen + FMP_AEAD_TAG_LEN then
      throw s!"payload_len mismatch: header={p.payloadLen}+tag actual={ciphertext.length}"
    return ⟨p.flags, receiverIdx, counter, p.payloadLen, ciphertext⟩) buf

structure FmpInnerPacket where
  timestamp : Nat
  msgType : Nat
  payload : Bytes
deriving DecidableEq

def encodeFmpInner (p : FmpInnerPacket) : Except String Bytes := do
  let timestamp ← BinaryWriter.u32le p.timestamp
  let msgType ← BinaryWriter.u8 p.msgType
  return timestamp ++ msgType ++ p.payload

def decodeFmpInner (buf : Bytes) : Except String FmpInnerPacket := do
  if buf.length < 5 then throw "FMP inner packet too short"
  BinaryReader.run (do return ⟨← u32le, ← u8, ← takeRest⟩) buf

def peekFmpPhase (buf : Bytes) : Except String Nat := peekPhase "empty FMP packet" buf

/-! ### Handshake packets -/

/-- Values that fit their packets. -/
structure FmpMsg1.Wire (m : FmpMsg1) : Prop where
  senderIdx : m.senderIdx < 2 ^ 32
  noiseMsg1 : m.noiseMsg1.length = 106

structure FmpMsg2.Wire (m : FmpMsg2) : Prop where
  senderIdx : m.senderIdx < 2 ^ 32
  receiverIdx : m.receiverIdx < 2 ^ 32
  noiseMsg2 : m.noiseMsg2.length = 57

structure FmpEstablished.Wire (p : FmpEstablished) : Prop where
  flags : p.flags < 256
  receiverIdx : p.receiverIdx < 2 ^ 32
  counter : p.counter < 2 ^ 64
  payloadLen : p.payloadLen < 65536
  ciphertext : p.ciphertext.length = p.payloadLen + 16

structure FmpInnerPacket.Wire (p : FmpInnerPacket) : Prop where
  timestamp : p.timestamp < 2 ^ 32
  msgType : p.msgType < 256

theorem encodeFmpMsg1_eq {m : FmpMsg1} (hi : m.senderIdx < 2 ^ 32) (hl : m.noiseMsg1.length = 106) :
    encodeFmpMsg1 m = .ok (prefixBytes 1 0 110 ++ leBytes 4 m.senderIdx ++ m.noiseMsg1) := by
  have hp := @encodeCommonPrefix_eq 1 0 110 (by omega) (by omega) (by omega)
  have hs : BinaryWriter.u32le m.senderIdx = .ok (leBytes 4 m.senderIdx) :=
    (@BinaryWriter.uint_of_lt _ 4) (by omega)
  simp [encodeFmpMsg1, NOISE_IK_MSG1_LEN, FMP_PHASE_MSG1, hl, hp, hs]

theorem decodeFmpMsg1_append {senderIdx : Nat} {noiseMsg1 : Bytes} (hi : senderIdx < 2 ^ 32)
    (hl : noiseMsg1.length = 106) :
    decodeFmpMsg1 (prefixBytes 1 0 110 ++ leBytes 4 senderIdx ++ noiseMsg1) = .ok ⟨senderIdx, noiseMsg1⟩ := by
  have hp := @decodeCommonPrefix_append 0 1 0 110 (leBytes 4 senderIdx ++ noiseMsg1) (by omega) (by omega) (by omega)
  have hlen : (prefixBytes 1 0 110 ++ leBytes 4 senderIdx ++ noiseMsg1).length = 114 := by simp [hl]
  simp only [decodeFmpMsg1, FMP_MSG1_TOTAL_LEN, NOISE_IK_MSG1_LEN, hlen]
  refine run_eq_ok.2 ⟨⟨114, []⟩, ?_⟩
  rw [List.append_assoc, bind_of_ok hp]
  simp only [FMP_PHASE_MSG1, ne_eq, not_true_eq_false, if_false]
  rw [bind_of_ok (u32le_append hi), bind_of_ok (bytes_all hl)]
  rfl

theorem encodeFmpMsg2_eq {m : FmpMsg2} (hi : m.senderIdx < 2 ^ 32) (hr : m.receiverIdx < 2 ^ 32)
    (hl : m.noiseMsg2.length = 57) :
    encodeFmpMsg2 m =
      .ok (prefixBytes 2 0 65 ++ leBytes 4 m.senderIdx ++ leBytes 4 m.receiverIdx ++ m.noiseMsg2) := by
  have hp := @encodeCommonPrefix_eq 2 0 65 (by omega) (by omega) (by omega)
  have hs : BinaryWriter.u32le m.senderIdx = .ok (leBytes 4 m.senderIdx) :=
    (@BinaryWriter.uint_of_lt _ 4) (by omega)
  have hr : BinaryWriter.u32le m.receiverIdx = .ok (leBytes 4 m.receiverIdx) :=
    (@BinaryWriter.uint_of_lt _ 4) (by omega)
  simp [encodeFmpMsg2, NOISE_IK_MSG2_LEN, FMP_PHASE_MSG2, hl, hp, hs, hr]

theorem decodeFmpMsg2_append {senderIdx receiverIdx : Nat} {noiseMsg2 : Bytes} (hi : senderIdx < 2 ^ 32)
    (hr : receiverIdx < 2 ^ 32) (hl : noiseMsg2.length = 57) :
    decodeFmpMsg2 (prefixBytes 2 0 65 ++ leBytes 4 senderIdx ++ leBytes 4 receiverIdx ++ noiseMsg2) =
      .ok ⟨senderIdx, receiverIdx, noiseMsg2⟩ := by
  have hp := @decodeCommonPrefix_append 0 2 0 65 (leBytes 4 senderIdx ++ (leBytes 4 receiverIdx ++ noiseMsg2)) (by
      omega) (by omega) (by omega)
  have hlen : (prefixBytes 2 0 65 ++ leBytes 4 senderIdx ++ leBytes 4 receiverIdx ++ noiseMsg2).length = 69 := by
    simp [hl]
  simp only [decodeFmpMsg2, FMP_MSG2_TOTAL_LEN, NOISE_IK_MSG2_LEN, hlen]
  refine run_eq_ok.2 ⟨⟨69, []⟩, ?_⟩
  rw [List.append_assoc, List.append_assoc, bind_of_ok hp]
  simp only [FMP_PHASE_MSG2, ne_eq, not_true_eq_false, if_false]
  rw [bind_of_ok (u32le_append hi), bind_of_ok (u32le_append hr), bind_of_ok (bytes_all hl)]
  rfl

/-- A decoder that accepts takes a u32 index and the Noise message, and nothing but their encoding. -/
theorem decodeFmpMsg1_bytes {buf : Bytes} {m : FmpMsg1} (h : decodeFmpMsg1 buf = .ok m) :
    m.senderIdx < 2 ^ 32 ∧ m.noiseMsg1.length = 106 ∧
      buf = prefixBytes 1 0 110 ++ leBytes 4 m.senderIdx ++ m.noiseMsg1 := by
  unfold decodeFmpMsg1 at h
  split at h
  · cases h
  rename_i htotal
  obtain ⟨r', h⟩ := run_eq_ok.1 h
  obtain ⟨p, r₁, h₁, h⟩ := bind_eq_ok.1 h
  dsimp only at h
  split at h
  · cases h
  rename_i hversion
  split at h
  · cases h
  rename_i hphase
  split at h
  · cases h
  rename_i hflags
  split at h
  · cases h
  rename_i hpayloadLen
  obtain ⟨si, r₂, h₂, h⟩ := bind_eq_ok.1 h
  obtain ⟨nm, r₃, h₃, h⟩ := bind_eq_ok.1 h
  cases h
  obtain ⟨-, -, -, -, hr₁⟩ := decodeCommonPrefix_eq_ok h₁
  obtain ⟨hlt, hr₂, -⟩ := uint_eq_ok h₂
  obtain ⟨hlen, hr₃, -⟩ := bytes_eq_ok h₃
  have hbuf : buf = prefixBytes p.phase p.flags p.payloadLen ++ r₁.rest := hr₁ (not_not.1 hversion)
  rw [not_not.1 hphase, not_not.1 hflags, not_not.1 hpayloadLen, hr₂, hr₃] at hbuf
  refine ⟨by omega, hlen, ?_⟩
  -- the total length leaves nothing behind the Noise message
  have hend : r'.rest = [] := by
    have htotal := not_not.1 htotal
    rw [hbuf] at htotal
    simp [FMP_MSG1_TOTAL_LEN, NOISE_IK_MSG1_LEN, hlen] at htotal
    exact List.length_eq_zero_iff.1 (by omega)
  rw [hbuf, hend, List.append_nil, List.append_assoc]
  rfl

theorem decodeFmpMsg1_eq_ok {buf : Bytes} {m : FmpMsg1} (h : decodeFmpMsg1 buf = .ok m) :
    m.senderIdx < 2 ^ 32 ∧ m.noiseMsg1.length = 106 :=
  let ⟨hidx, hlen, _⟩ := decodeFmpMsg1_bytes h
  ⟨hidx, hlen⟩

theorem decodeFmpMsg2_bytes {buf : Bytes} {m : FmpMsg2} (h : decodeFmpMsg2 buf = .ok m) :
    m.senderIdx < 2 ^ 32 ∧ m.receiverIdx < 2 ^ 32 ∧ m.noiseMsg2.length = 57 ∧
      buf = prefixBytes 2 0 65 ++ leBytes 4 m.senderIdx ++ leBytes 4 m.receiverIdx ++ m.noiseMsg2 := by
  unfold decodeFmpMsg2 at h
  split at h
  · cases h
  rename_i htotal
  obtain ⟨r', h⟩ := run_eq_ok.1 h
  obtain ⟨p, r₁, h₁, h⟩ := bind_eq_ok.1 h
  dsimp only at h
  split at h
  · cases h
  rename_i hversion
  split at h
  · cases h
  rename_i hphase
  split at h
  · cases h
  rename_i hflags
  split at h
  · cases h
  rename_i hpayloadLen
  obtain ⟨si, r₂, h₂, h⟩ := bind_eq_ok.1 h
  obtain ⟨ri, r₃, h₃, h⟩ := bind_eq_ok.1 h
  obtain ⟨nm, r₄, h₄, h⟩ := bind_eq_ok.1 h
  cases h
  obtain ⟨-, -, -, -, hr₁⟩ := decodeCommonPrefix_eq_ok h₁
  obtain ⟨hlt₂, hr₂, -⟩ := uint_eq_ok h₂
  obtain ⟨hlt₃, hr₃, -⟩ := uint_eq_ok h₃
  obtain ⟨hlen, hr₄, -⟩ := bytes_eq_ok h₄
  have hbuf : buf = prefixBytes p.phase p.flags p.payloadLen ++ r₁.rest := hr₁ (not_not.1 hversion)
  rw [not_not.1 hphase, not_not.1 hflags, not_not.1 hpayloadLen, hr₂, hr₃, hr₄] at hbuf
  refine ⟨by omega, by omega, hlen, ?_⟩
  have hend : r'.rest = [] := by
    have htotal := not_not.1 htotal
    rw [hbuf] at htotal
    simp [FMP_MSG2_TOTAL_LEN, NOISE_IK_MSG2_LEN, hlen] at htotal
    exact List.length_eq_zero_iff.1 (by omega)
  rw [hbuf, hend, List.append_nil, List.append_assoc, List.append_assoc]
  rfl

theorem decodeFmpMsg2_eq_ok {buf : Bytes} {m : FmpMsg2} (h : decodeFmpMsg2 buf = .ok m) :
    m.senderIdx < 2 ^ 32 ∧ m.receiverIdx < 2 ^ 32 ∧ m.noiseMsg2.length = 57 :=
  let ⟨hsender, hreceiver, hlen, _⟩ := decodeFmpMsg2_bytes h
  ⟨hsender, hreceiver, hlen⟩

/-- A Msg2 is only encoded under a u32 sender index. -/
theorem encodeFmpMsg2_fits {m : FmpMsg2} {b : Bytes} (h : encodeFmpMsg2 m = .ok b) : m.senderIdx < 2 ^ 32 := by
  unfold encodeFmpMsg2 at h
  split at h
  · cases h
  obtain ⟨hd, -, h⟩ := except_bind_eq_ok.1 h
  obtain ⟨si, hsi, -⟩ := except_bind_eq_ok.1 h
  have := (BinaryWriter.uint_eq_ok hsi).1
  omega

/-! ### Established frames -/

/-- The sixteen header bytes of an Established frame, which are also its associated data. -/
def fmpHeaderBytes (flags receiverIdx counter payloadLen : Nat) : Bytes :=
  prefixBytes 0 flags payloadLen ++ leBytes 4 receiverIdx ++ leBytes 8 counter

section
variable {flags receiverIdx counter payloadLen : Nat} {b : Bytes}

@[simp] theorem length_fmpHeaderBytes : (fmpHeaderBytes flags receiverIdx counter payloadLen).length = 16 := by
  simp [fmpHeaderBytes]

theorem encodeFmpEstablishedHeader_eq (hf : flags < 256) (hr : receiverIdx < 2 ^ 32) (hc : counter < 2 ^ 64)
    (hl : payloadLen < 65536) :
    encodeFmpEstablishedHeader flags receiverIdx counter payloadLen =
      .ok (fmpHeaderBytes flags receiverIdx counter payloadLen) := by
  have hp := (@encodeCommonPrefix_eq 0) (by omega) hf hl
  have h₁ : BinaryWriter.u32le receiverIdx = .ok (leBytes 4 receiverIdx) :=
    (@BinaryWriter.uint_of_lt _ 4) (by omega)
  have h₂ : BinaryWriter.u64le counter = .ok (leBytes 8 counter) := (@BinaryWriter.uint_of_lt _ 8) (by omega)
  simp [encodeFmpEstablishedHeader, FMP_PHASE_ESTABLISHED, hp, h₁, h₂, fmpHeaderBytes]

theorem encodeFmpEstablishedHeader_eq_ok (hf : flags < 256)
    (h : encodeFmpEstablishedHeader flags receiverIdx counter payloadLen = .ok b) :
    receiverIdx < 2 ^ 32 ∧ counter < 2 ^ 64 ∧ payloadLen < 65536 ∧
      b = fmpHeaderBytes flags receiverIdx counter payloadLen := by
  obtain ⟨p, hp, h⟩ := except_bind_eq_ok.1 h
  obtain ⟨r, hr, h⟩ := except_bind_eq_ok.1 h
  obtain ⟨c, hc, h⟩ := except_bind_eq_ok.1 h
  cases h
  obtain ⟨hl, rfl⟩ := encodeCommonPrefix_eq_ok (by simp [FMP_PHASE_ESTABLISHED]) hf hp
  obtain ⟨hr', rfl⟩ := BinaryWriter.uint_eq_ok hr
  obtain ⟨hc', rfl⟩ := BinaryWriter.uint_eq_ok hc
  exact ⟨by omega, by omega, hl, rfl⟩

theorem fmpHeaderBytes_inj {flags' receiverIdx' counter' payloadLen' : Nat} (hc : counter < 2 ^ 64)
    (hc' : counter' < 2 ^ 64)
    (h : fmpHeaderBytes flags receiverIdx counter payloadLen =
      fmpHeaderBytes flags' receiverIdx' counter' payloadLen') : counter = counter' := by
  obtain ⟨-, h⟩ := List.append_inj' h (by simp)
  exact leBytes_inj (w := 8) (by omega) (by omega) h

theorem decodeFmpEstablished_append {ciphertext : Bytes} (hf : flags < 256) (hr : receiverIdx < 2 ^ 32)
    (hc : counter < 2 ^ 64) (hl : payloadLen < 65536) (hct : ciphertext.length = payloadLen + 16) :
    decodeFmpEstablished (fmpHeaderBytes flags receiverIdx counter payloadLen ++ ciphertext) =
      .ok ⟨flags, receiverIdx, counter, payloadLen, ciphertext⟩ := by
  have hp := @decodeCommonPrefix_append 0 0 flags payloadLen (leBytes 4 receiverIdx ++ (leBytes 8 counter ++
      ciphertext)) (by omega) hf hl
  have hlen : ¬ (fmpHeaderBytes flags receiverIdx counter payloadLen ++ ciphertext).length < 32 := by
    simp [hct]; omega
  simp only [decodeFmpEstablished, FMP_ESTABLISHED_HEADER_LEN, FMP_AEAD_TAG_LEN, hlen, if_false]
  refine run_eq_ok.2 ⟨⟨16 + ciphertext.length, []⟩, ?_⟩
  rw [fmpHeaderBytes, List.append_assoc, List.append_assoc, bind_of_ok hp]
  simp only [FMP_PHASE_ESTABLISHED, ne_eq, not_true_eq_false, if_false]
  rw [bind_of_ok (u32le_append hr), bind_of_ok (u64le_append hc), bind_of_ok takeRest_eq]
  exact congrFun (if_neg (not_not.2 hct)) _

/-- An accepted Established frame is its header followed by its ciphertext, byte for byte. -/
theorem decodeFmpEstablished_eq_ok {buf : Bytes} {est : FmpEstablished} (h : decodeFmpEstablished buf = .ok est) :
    est.flags < 256 ∧ est.receiverIdx < 2 ^ 32 ∧ est.counter < 2 ^ 64 ∧ est.payloadLen < 65536 ∧
      est.ciphertext.length = est.payloadLen + 16 ∧
      buf = fmpHeaderBytes est.flags est.receiverIdx est.counter est.payloadLen ++ est.ciphertext := by
  unfold decodeFmpEstablished at h
  split at h
  · cases h
  obtain ⟨r', h⟩ := run_eq_ok.1 h
  obtain ⟨p, r₁, h₁, h⟩ := bind_eq_ok.1 h
  split at h
  · cases h
  split at h
  · cases h
  obtain ⟨ri, r₂, h₂, h⟩ := bind_eq_ok.1 h
  obtain ⟨ct, r₃, h₃, h⟩ := bind_eq_ok.1 h
  obtain ⟨rest, r₄, h₄, h⟩ := bind_eq_ok.1 h
  split at h
  · cases h
  cases h
  cases h₄
  obtain ⟨-, hf, hl, -, hr₁⟩ := decodeCommonPrefix_eq_ok h₁
  obtain ⟨hlt₂, hr₂, -⟩ := uint_eq_ok h₂
  obtain ⟨hlt₃, hr₃, -⟩ := uint_eq_ok h₃
  have hv : p.version = 0 := not_not.1 ‹¬ p.version ≠ 0›
  have hph : p.phase = 0 := not_not.1 ‹¬ p.phase ≠ FMP_PHASE_ESTABLISHED›
  have hct : r₃.rest.length = p.payloadLen + FMP_AEAD_TAG_LEN :=
    not_not.1 ‹¬ r₃.rest.length ≠ p.payloadLen + FMP_AEAD_TAG_LEN›
  refine ⟨hf, by omega, by omega, hl, hct, ?_⟩
  have hbuf := hr₁ hv
  simp only at hbuf
  rw [hbuf, hr₂, hr₃, hph]
  simp [fmpHeaderBytes]

end

/-! ### Inner packets -/

theorem encodeFmpInner_eq_ok {p : FmpInnerPacket} {b : Bytes} (h : encodeFmpInner p = .ok b) :
    p.timestamp < 2 ^ 32 ∧ p.msgType < 256 ∧ b = leBytes 4 p.timestamp ++ leBytes 1 p.msgType ++ p.payload := by
  obtain ⟨t, ht, h⟩ := except_bind_eq_ok.1 h
  obtain ⟨m, hm, h⟩ := except_bind_eq_ok.1 h
  cases h
  obtain ⟨ht', rfl⟩ := BinaryWriter.uint_eq_ok ht
  obtain ⟨hm', rfl⟩ := BinaryWriter.uint_eq_ok hm
  exact ⟨by omega, by omega, rfl⟩

theorem decodeFmpInner_encode {p : FmpInnerPacket} {b : Bytes} (h : encodeFmpInner p = .ok b) :
    decodeFmpInner b = .ok p := by
  obtain ⟨ht, hm, rfl⟩ := encodeFmpInner_eq_ok h
  have hlen : ¬ (leBytes 4 p.timestamp ++ leBytes 1 p.msgType ++ p.payload).length < 5 := by
    simp; omega
  simp only [decodeFmpInner, hlen, if_false]
  refine run_eq_ok.2 ⟨⟨5 + p.payload.length, []⟩, ?_⟩
  rw [List.append_assoc, bind_of_ok (u32le_append ht), bind_of_ok (u8_append hm),
    bind_of_ok takeRest_eq]
  rfl

theorem decodeFmpInner_bytes {buf : Bytes} {p : FmpInnerPacket} (h : decodeFmpInner buf = .ok p) :
    p.timestamp < 2 ^ 32 ∧ p.msgType < 256 ∧ buf = leBytes 4 p.timestamp ++ leBytes 1 p.msgType ++ p.payload := by
  unfold decodeFmpInner at h
  split at h
  · cases h
  obtain ⟨r', h⟩ := run_eq_ok.1 h
  obtain ⟨t, r₁, h₁, h⟩ := bind_eq_ok.1 h
  obtain ⟨m, r₂, h₂, h⟩ := bind_eq_ok.1 h
  obtain ⟨rest, r₃, h₃, h⟩ := bind_eq_ok.1 h
  cases h
  cases h₃
  obtain ⟨hlt₁, hr₁, -⟩ := uint_eq_ok h₁
  obtain ⟨hlt₂, hr₂, -⟩ := uint_eq_ok h₂
  refine ⟨by omega, hlt₂, ?_⟩
  rw [show buf = _ from hr₁, hr₂, List.append_assoc]

end Fips
