import Fips.Codec.Binary
import Fips.Lib.Exec

/-!
# The cryptographic primitives

The curve, hash and cipher functions come from the `@noble` packages. They are the parameter `Suite`
of the model; `Suite.Lawful` is what the protocol code relies on: output sizes, `decrypt` inverting
`encrypt`, and a Diffie-Hellman function that is symmetric and only looks at the peer's x coordinate.
-/

namespace Fips
open LittleEndian

/-- `@noble/curves`, `@noble/hashes` and `@noble/ciphers`, as the code calls them. -/
structure Suite where
  sha256 : Bytes → Bytes
  /-- `hmac(sha256, key, message)`. -/
  hmac : Bytes → Bytes → Bytes
  /-- `secp256k1.getPublicKey(priv, true)`: throws on an invalid scalar. -/
  getPublicKey : Bytes → Except String Bytes
  /-- `secp256k1.getSharedSecret(priv, pub, true)`: throws when `pub` is no curve point. -/
  getSharedSecret : Bytes → Bytes → Except String Bytes
  /-- `chacha20poly1305(key, nonce, aad).encrypt(plaintext)`. -/
  encrypt : (key nonce aad plaintext : Bytes) → Bytes
  /-- `chacha20poly1305(key, nonce, aad).decrypt(ciphertext)`: throws on a bad tag. -/
  decrypt : (key nonce aad ciphertext : Bytes) → Except String Bytes

/-- A 33-byte key with one of the two compression prefixes. -/
def IsCompressed (pub : Bytes) : Prop := pub.length = 33 ∧ (pub.head? = some 2 ∨ pub.head? = some 3)

instance (pub : Bytes) : Decidable (IsCompressed pub) := inferInstanceAs (Decidable (_ ∧ _))

/-- Two compressed encodings of one x-only key. -/
def SameX (a b : Bytes) : Prop := IsCompressed a ∧ IsCompressed b ∧ a.tail = b.tail

/-- What the code relies on of the primitives. -/
structure Suite.Lawful (S : Suite) : Prop where
  sha256_length : ∀ b, (S.sha256 b).length = 32
  hmac_length : ∀ k b, (S.hmac k b).length = 32
  publicKey : ∀ {priv pub}, S.getPublicKey priv = .ok pub → IsCompressed pub
  encrypt_length : ∀ k n ad pt, (S.encrypt k n ad pt).length = pt.length + 16
  decrypt_encrypt : ∀ k n ad pt, S.decrypt k n ad (S.encrypt k n ad pt) = .ok pt
  /-- A valid scalar and the public key of another always have a shared secret. -/
  shared_ok : ∀ {a A b B}, S.getPublicKey a = .ok A → S.getPublicKey b = .ok B →
    ∃ z, S.getSharedSecret a B = .ok z
  /-- Diffie-Hellman is symmetric in the x coordinate. -/
  shared_comm : ∀ {a A b B z z'}, S.getPublicKey a = .ok A → S.getPublicKey b = .ok B →
    S.getSharedSecret a B = .ok z → S.getSharedSecret b A = .ok z' → z.tail = z'.tail
  /-- Only the x coordinate of the peer key matters. -/
  shared_x : ∀ {a B B'}, SameX B B' →
    (S.getSharedSecret a B).map List.tail = (S.getSharedSecret a B').map List.tail

/-- `identity/index.ts`: the SHA-256 of the shared x coordinate. -/
def ecdh (S : Suite) (secretKey peerCompressedPubkey : Bytes) : Except String Bytes := do
  if peerCompressedPubkey.length ≠ 33 then throw "peer pubkey must be 33-byte compressed"
  let shared ← S.getSharedSecret secretKey peerCompressedPubkey
  return S.sha256 shared.tail

/-- `FipsIdentity`: a valid secret key, its compressed public key and the NodeAddr of its x-only key. -/
structure FipsIdentity where
  secretKey : Bytes
  publicKey : Bytes
  nodeAddr : Bytes
deriving DecidableEq

/-- `nodeaddr/index.ts`: 16 bytes. -/
abbrev NodeAddr := Bytes

/-- The first 16 bytes of the SHA-256 of the x-only key. -/
def deriveNodeAddr (S : Suite) (pubkey : Bytes) : Except String Bytes :=
  if pubkey.length = 32 then .ok ((S.sha256 pubkey).take 16)
  else if pubkey.length = 33 then
    if pubkey.head? ≠ some 2 ∧ pubkey.head? ≠ some 3 then
      .error s!"invalid compressed pubkey prefix 0x{String.ofList (Nat.toDigits 16 (pubkey.headD 0).toNat)}"
    else .ok ((S.sha256 pubkey.tail).take 16)
  else .error s!"expected 32-byte x-only or 33-byte compressed pubkey, got {pubkey.length}"

/-- Lexicographic. -/
def compareNodeAddr (a b : NodeAddr) : Except String Ordering :=
  if a.length ≠ 16 ∨ b.length ≠ 16 then .error "NodeAddr must be 16 bytes" else .ok (compareOfLessAndEq a b)

/-- What `identityFromSecretKey` returns. -/
structure FipsIdentity.Valid (S : Suite) (id : FipsIdentity) : Prop where
  publicKey : S.getPublicKey id.secretKey = .ok id.publicKey
  nodeAddr : deriveNodeAddr S id.publicKey = .ok id.nodeAddr

def identityFromSecretKey (S : Suite) (secretKey : Bytes) : Except String FipsIdentity := do
  if secretKey.length ≠ 32 then throw "secret key must be 32 bytes"
  let publicKey ← S.getPublicKey secretKey
  let nodeAddr ← deriveNodeAddr S publicKey.tail
  return ⟨secretKey, publicKey, nodeAddr⟩

/-- `crypto/aead.ts`: four zero bytes and the little-endian counter. -/
def noiseNonce (counter : Nat) : Bytes := List.replicate 4 0 ++ leBytes 8 counter

def aeadSeal (S : Suite) (key : Bytes) (counter : Nat) (plaintext aad : Bytes) : Except String Bytes :=
  if key.length ≠ 32 then .error "AEAD key must be 32 bytes"
  else .ok (S.encrypt key (noiseNonce counter) aad plaintext)

def aeadOpen (S : Suite) (key : Bytes) (counter : Nat) (ciphertext aad : Bytes) : Except String Bytes :=
  if key.length ≠ 32 then .error "AEAD key must be 32 bytes"
  else S.decrypt key (noiseNonce counter) aad ciphertext

/-- The arguments and the result of one `aeadSeal` call. -/
structure Seal where
  counter : Nat
  aad : Bytes
  plaintext : Bytes
  ciphertext : Bytes
deriving DecidableEq

theorem SameX.refl {a : Bytes} (h : IsCompressed a) : SameX a a := ⟨h, h, rfl⟩

theorem SameX.symm {a b : Bytes} (h : SameX a b) : SameX b a := ⟨h.2.1, h.1, h.2.2.symm⟩

section
variable {S : Suite} (hS : S.Lawful)
include hS

/-- The secret of two key pairs is the same from both ends, whatever parity byte each end has. -/
theorem ecdh_comm {a A A' b B B' : Bytes} (ha : S.getPublicKey a = .ok A) (hb : S.getPublicKey b = .ok B)
    (hA : SameX A' A) (hB : SameX B' B) :
    ∃ z, ecdh S a B' = .ok z ∧ ecdh S b A' = .ok z ∧ z.length = 32 := by
  obtain ⟨z₁, h₁⟩ := hS.shared_ok ha hb
  obtain ⟨z₂, h₂⟩ := hS.shared_ok hb ha
  have hx₁ := hS.shared_x (a := a) hB
  have hx₂ := hS.shared_x (a := b) hA
  rw [h₁] at hx₁; rw [h₂] at hx₂
  have hB' : B'.length = 33 := hB.1.1
  have hA' : A'.length = 33 := hA.1.1
  have hcomm := hS.shared_comm ha hb h₁ h₂
  cases h₁' : S.getSharedSecret a B' with
  | error e => rw [h₁'] at hx₁; cases hx₁
  | ok w₁ =>
    cases h₂' : S.getSharedSecret b A' with
    | error e => rw [h₂'] at hx₂; cases hx₂
    | ok w₂ =>
      rw [h₁'] at hx₁; rw [h₂'] at hx₂
      have e₁ : w₁.tail = z₁.tail := by simpa [Except.map] using hx₁
      have e₂ : w₂.tail = z₂.tail := by simpa [Except.map] using hx₂
      refine ⟨S.sha256 z₁.tail, ?_, ?_, hS.sha256_length _⟩
      · simp [ecdh, hB', h₁', e₁]
      · simp [ecdh, hA', h₂', e₂, hcomm]

omit hS in
theorem deriveNodeAddr_compressed {pub : Bytes} (h : IsCompressed pub) :
    deriveNodeAddr S pub = .ok ((S.sha256 pub.tail).take 16) := by
  obtain ⟨hl, hp⟩ := h
  rcases hp with hp | hp <;> simp [deriveNodeAddr, hl, hp]

theorem length_of_deriveNodeAddr {pub addr : Bytes} (h : deriveNodeAddr S pub = .ok addr) : addr.length = 16 := by
  unfold deriveNodeAddr at h
  split at h
  · cases h; simp [hS.sha256_length]
  split at h
  · split at h
    · cases h
    · cases h; simp [hS.sha256_length]
  · cases h

theorem identityFromSecretKey_valid {secretKey : Bytes} {id : FipsIdentity}
    (h : identityFromSecretKey S secretKey = .ok id) : id.Valid S := by
  simp only [identityFromSecretKey] at h
  split at h
  · cases h
  obtain ⟨pub, hpub, h⟩ := Exec.except_bind_eq_ok.1 h
  obtain ⟨addr, haddr, h⟩ := Exec.except_bind_eq_ok.1 h
  cases h
  refine ⟨hpub, ?_⟩
  have hc := hS.publicKey hpub
  rw [deriveNodeAddr_compressed hc]
  have ht : pub.tail.length = 32 := by simp [hc.1]
  simpa [deriveNodeAddr, ht] using haddr

theorem aeadOpen_seal {key : Bytes} (hk : key.length = 32) (counter : Nat) (pt aad : Bytes) :
    aeadOpen S key counter (S.encrypt key (noiseNonce counter) aad pt) aad = .ok pt := by
  simp [aeadOpen, hk, hS.decrypt_encrypt]

end

end Fips
