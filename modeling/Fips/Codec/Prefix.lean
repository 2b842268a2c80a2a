import Fips.Codec.Binary

/-!
# The common prefix of FMP and FSP packets

Both protocols start every packet with the same four bytes: version and phase nibbles, flags, and a
little-endian payload length. `fmp/wire.ts` and `fsp/wire.ts` each have their own copy of this code.
-/

namespace Fips
open LittleEndian BinaryReader Exec

structure CommonPrefix where
  version : Nat
  phase : Nat
  flags : Nat
  payloadLen : Nat
deriving DecidableEq

/-- `encodeCommonPrefix`, `encodeFspCommonPrefix`. -/
def encodeCommonPrefix (p : CommonPrefix) : Except String Bytes := do
  if p.version > 0xf then throw "version 4-bit"
  if p.phase > 0xf then throw "phase 4-bit"
  let b0 ← BinaryWriter.u8 (p.version % 16 * 16 + p.phase % 16)
  let b1 ← BinaryWriter.u8 (p.flags % 256)
  let len ← BinaryWriter.u16le p.payloadLen
  return b0 ++ b1 ++ len

/-- `decodeCommonPrefix`, `decodeFspCommonPrefix`. -/
def decodeCommonPrefix : Read CommonPrefix := do
  let versionAndPhase ← u8
  let flags ← u8
  let payloadLen ← u16le
  return ⟨versionAndPhase / 16 % 16, versionAndPhase % 16, flags, payloadLen⟩

/-- `peekFmpPhase`, `peekFspPhase`: the low nibble of the first byte. -/
def peekPhase (empty : String) (buf : Bytes) : Except String Nat :=
  match buf with
  | [] => .error empty
  | b :: _ => .ok (b.toNat % 16)

/-- The four bytes of a prefix whose fields are in range. -/
def prefixBytes (phase flags payloadLen : Nat) : Bytes :=
  leBytes 1 phase ++ leBytes 1 flags ++ leBytes 2 payloadLen

@[simp] theorem length_prefixBytes (phase flags payloadLen : Nat) :
    (prefixBytes phase flags payloadLen).length = 4 := by
  simp [prefixBytes]

theorem encodeCommonPrefix_eq {phase flags payloadLen : Nat} (hp : phase < 16) (hf : flags < 256)
    (hl : payloadLen < 65536) :
    encodeCommonPrefix ⟨0, phase, flags, payloadLen⟩ = .ok (prefixBytes phase flags payloadLen) := by
  have h₁ : BinaryWriter.u8 (phase % 16) = .ok (leBytes 1 phase) := by
    rw [Nat.mod_eq_of_lt hp]
    exact BinaryWriter.uint_of_lt (by omega)
  have h₂ : BinaryWriter.u8 (flags % 256) = .ok (leBytes 1 flags) := by
    rw [Nat.mod_eq_of_lt hf]
    exact BinaryWriter.uint_of_lt hf
  have h₃ : BinaryWriter.u16le payloadLen = .ok (leBytes 2 payloadLen) := BinaryWriter.uint_of_lt hl
  have hp' : ¬ phase > 15 := by omega
  simp [encodeCommonPrefix, hp', h₁, h₂, h₃, prefixBytes]

theorem encodeCommonPrefix_eq_ok {phase flags payloadLen : Nat} {b : Bytes} (hp : phase < 16) (hf : flags < 256)
    (h : encodeCommonPrefix ⟨0, phase, flags, payloadLen⟩ = .ok b) :
    payloadLen < 65536 ∧ b = prefixBytes phase flags payloadLen := by
  by_cases hl : payloadLen < 65536
  · rw [encodeCommonPrefix_eq hp hf hl] at h
    cases h
    exact ⟨hl, rfl⟩
  · have h₃ : ∃ e, BinaryWriter.u16le payloadLen = .error e := by simp [BinaryWriter.u16le, BinaryWriter.uint, hl]
    obtain ⟨e, h₃⟩ := h₃
    have hp' : ¬ phase > 15 := by omega
    simp only [encodeCommonPrefix, hp', h₃] at h
    simp [except_bind_eq_ok] at h

theorem decodeCommonPrefix_append {off phase flags payloadLen : Nat} {rest : Bytes} (hp : phase < 16)
    (hf : flags < 256) (hl : payloadLen < 65536) :
    decodeCommonPrefix ⟨off, prefixBytes phase flags payloadLen ++ rest⟩ =
      .ok (⟨0, phase, flags, payloadLen⟩, ⟨off + 4, rest⟩) := by
  simp only [decodeCommonPrefix, prefixBytes, List.append_assoc]
  rw [bind_of_ok (u8_append (by omega)), bind_of_ok (u8_append hf), bind_of_ok (u16le_append hl)]
  have h₁ : phase / 16 % 16 = 0 := by omega
  have h₂ : phase % 16 = phase := by omega
  rw [h₁, h₂]
  rfl

theorem decodeCommonPrefix_eq_ok {r r' : BinaryReader} {p : CommonPrefix}
    (h : decodeCommonPrefix r = .ok (p, r')) :
    p.phase < 16 ∧ p.flags < 256 ∧ p.payloadLen < 65536 ∧ r'.off = r.off + 4 ∧
      (p.version = 0 → r.rest = prefixBytes p.phase p.flags p.payloadLen ++ r'.rest) := by
  obtain ⟨b0, r₁, h₁, h⟩ := bind_eq_ok.1 h
  obtain ⟨b1, r₂, h₂, h⟩ := bind_eq_ok.1 h
  obtain ⟨len, r₃, h₃, h⟩ := bind_eq_ok.1 h
  cases h
  obtain ⟨hlt₁, hr₁, ho₁⟩ := uint_eq_ok h₁
  obtain ⟨hlt₂, hr₂, ho₂⟩ := uint_eq_ok h₂
  obtain ⟨hlt₃, hr₃, ho₃⟩ := uint_eq_ok h₃
  refine ⟨Nat.mod_lt _ (by omega), hlt₂, hlt₃, by omega, fun hv => ?_⟩
  have hb : b0 % 16 = b0 := by simp only at hv; omega
  rw [hr₁, hr₂, hr₃]
  simp [prefixBytes, hb]

end Fips
