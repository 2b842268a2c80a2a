import Fips.Fmp.Wire
import Fips.Fsp.DirectTransport

/-!
# `WebSocketTransport.ts`: what the transport takes for a FIPS record

A local link first exchanges key hints, which are not FIPS records; every other message is checked to be a physical record
before it is sent or received. The tests for a direct FSP record and for a fragment of one are of disjoint inputs, so that
their order, which is not the packet processor's, does not matter.
-/

namespace Fips
open LittleEndian Exec

/-! ### Key hints -/

def LOCAL_KEY_HINT_VERSION : UInt8 := 1
def LOCAL_KEY_HINT_REQUEST_BYTES : Nat := 9
def LOCAL_KEY_HINT_RESPONSE_BYTES : Nat := 41

inductive LocalKeyHint
  | request (nonce : Nat)
  | response (nonce : Nat) (pubkey : Bytes)
deriving DecidableEq

def encodeLocalKeyHintRequest (nonce : Nat) : Except String Bytes := do
  if nonce > 0xffffffffffffffff then throw "key-hint nonce must be an unsigned 64-bit integer"
  -- `setBigUint64(1, nonce, false)`
  return LOCAL_KEY_HINT_VERSION :: (leBytes 8 nonce).reverse

def encodeLocalKeyHintResponse (nonce : Nat) (pubkey : Bytes) : Except String Bytes := do
  if pubkey.length ≠ 32 then throw "key-hint pubkey must be 32 bytes"
  return (← encodeLocalKeyHintRequest nonce) ++ pubkey

def decodeLocalKeyHint (wire : Bytes) : Option LocalKeyHint :=
  if wire.head? ≠ some LOCAL_KEY_HINT_VERSION then none
  else if wire.length ≠ LOCAL_KEY_HINT_REQUEST_BYTES ∧ wire.length ≠ LOCAL_KEY_HINT_RESPONSE_BYTES then none
  else
    let nonce := leNat ((wire.drop 1).take 8).reverse
    if wire.length = LOCAL_KEY_HINT_REQUEST_BYTES then some (.request nonce)
    else some (.response nonce (wire.drop LOCAL_KEY_HINT_REQUEST_BYTES))

theorem encodeLocalKeyHintRequest_eq_ok {nonce : Nat} {wire : Bytes} (h : encodeLocalKeyHintRequest nonce = .ok wire) :
    nonce < 2 ^ 64 ∧ wire = LOCAL_KEY_HINT_VERSION :: (leBytes 8 nonce).reverse := by
  unfold encodeLocalKeyHintRequest at h
  by_cases hnonce : nonce > 0xffffffffffffffff
  · rw [if_pos hnonce] at h
    cases h
  · rw [if_neg hnonce] at h
    cases h
    exact ⟨by omega, rfl⟩

theorem decodeLocalKeyHint_request {nonce : Nat} {wire : Bytes} (h : encodeLocalKeyHintRequest nonce = .ok wire) :
    decodeLocalKeyHint wire = some (.request nonce) := by
  obtain ⟨hnonce, rfl⟩ := encodeLocalKeyHintRequest_eq_ok h
  have hnat : leNat (leBytes 8 nonce) = nonce := leNat_leBytes (by omega)
  have htake : (leBytes 8 nonce).reverse.take 8 = (leBytes 8 nonce).reverse := List.take_of_length_le (by simp)
  simp [decodeLocalKeyHint, LOCAL_KEY_HINT_REQUEST_BYTES, htake, hnat]

theorem decodeLocalKeyHint_response {nonce : Nat} {pubkey wire : Bytes}
    (h : encodeLocalKeyHintResponse nonce pubkey = .ok wire) : decodeLocalKeyHint wire = some (.response nonce pubkey) := by
  unfold encodeLocalKeyHintResponse at h
  by_cases hpubkey : pubkey.length ≠ 32
  · rw [if_pos hpubkey] at h
    cases h
  rw [if_neg hpubkey] at h
  obtain ⟨request, hrequest, h⟩ := except_bind_eq_ok.1 h
  cases h
  obtain ⟨hnonce, rfl⟩ := encodeLocalKeyHintRequest_eq_ok hrequest
  have hnat : leNat (leBytes 8 nonce) = nonce := leNat_leBytes (by omega)
  have hrest : ((leBytes 8 nonce).reverse ++ pubkey).drop 8 = pubkey := List.drop_left' (by simp)
  simp [decodeLocalKeyHint, LOCAL_KEY_HINT_REQUEST_BYTES, LOCAL_KEY_HINT_RESPONSE_BYTES, not_not.1 hpubkey, hnat,
    hrest]

/-! ### Records -/

def validateDirectFspFragment (wire : Bytes) : Except String Unit := do
  if wire.length ≤ 20 then throw "direct-FSP fragment has no payload"
  let ⟨_, totalLength, fragmentIndex, fragmentCount⟩ := readFragmentHeader wire
  if totalLength = 0 ∨ totalLength > 72 * 1024 ∨ fragmentCount ≤ 1 ∨ fragmentCount > 128 ∨ fragmentCount > totalLength ∨
      fragmentIndex ≥ fragmentCount ∨ wire.length - 20 > totalLength then
    throw "invalid direct-FSP fragment header"

def validateFipsRecord (wire : Bytes) (maxBytes : Nat) : Except String Unit := do
  if wire.length = 0 ∨ wire.length > maxBytes then throw s!"WebSocket FIPS record exceeds {maxBytes} bytes"
  if isDirectFspEstablished wire then discard (decodeFspEstablished wire)
  else if isDirectFspTransportFragment wire then validateDirectFspFragment wire
  else
    let phase ← peekFmpPhase wire
    if phase = 0 then discard (decodeFmpEstablished wire)
    else if phase = 1 then discard (decodeFmpMsg1 wire)
    else if phase = 2 then discard (decodeFmpMsg2 wire)
    else throw s!"unknown FIPS physical record phase {phase}"

end Fips
