import Fips.Crypto.Suite

/-!
# A lawful suite that computes

Small stand-ins with the shape of the real primitives: public keys are the scalar with a parity byte,
Diffie-Hellman is the byte-wise exclusive or, hashes are checksums and a ciphertext is the plaintext
with a checksum tag. Nothing here is secret; it makes `Suite.Lawful` inhabited and lets the model run.
-/

namespace Fips
open LittleEndian

namespace Toy

def checksum (b : Bytes) : Nat := b.foldl (fun acc x => (acc * 257 + x.toNat + 1) % 2 ^ 256) 0

def tag (key nonce aad plaintext : Bytes) : Bytes := leBytes 16 (checksum (key ++ nonce ++ aad ++ plaintext))

def getPublicKey (priv : Bytes) : Except String Bytes :=
  if priv.length = 32 then .ok (2 :: priv) else .error "invalid private key"

def getSharedSecret (priv pub : Bytes) : Except String Bytes :=
  if IsCompressed pub then .ok (2 :: List.zipWith (· ^^^ ·) priv pub.tail) else .error "bad point"

def encrypt (key nonce aad plaintext : Bytes) : Bytes := plaintext ++ tag key nonce aad plaintext

def decrypt (key nonce aad ciphertext : Bytes) : Except String Bytes :=
  let plaintext := ciphertext.take (ciphertext.length - 16)
  if ciphertext = encrypt key nonce aad plaintext then .ok plaintext else .error "invalid tag"

end Toy

def toySuite : Suite where
  sha256 b := leBytes 32 (Toy.checksum b)
  hmac key message := leBytes 32 (Toy.checksum (key ++ message))
  getPublicKey := Toy.getPublicKey
  getSharedSecret := Toy.getSharedSecret
  encrypt := Toy.encrypt
  decrypt := Toy.decrypt

theorem Toy.getPublicKey_eq_ok {priv pub : Bytes} (h : Toy.getPublicKey priv = .ok pub) :
    priv.length = 32 ∧ pub = 2 :: priv := by
  unfold Toy.getPublicKey at h
  split at h
  · exact ⟨‹_›, (Except.ok.inj h).symm⟩
  · cases h

theorem Toy.isCompressed {priv : Bytes} (h : priv.length = 32) : IsCompressed (2 :: priv) :=
  ⟨by simp [h], .inl rfl⟩

theorem toySuite_lawful : toySuite.Lawful where
  sha256_length b := length_leBytes _ _
  hmac_length k b := length_leBytes _ _
  publicKey h := by
    obtain ⟨hl, rfl⟩ := Toy.getPublicKey_eq_ok h
    exact Toy.isCompressed hl
  encrypt_length k n ad pt := by simp [toySuite, Toy.encrypt, Toy.tag]
  decrypt_encrypt k n ad pt := by
    have htake : (Toy.encrypt k n ad pt).take ((Toy.encrypt k n ad pt).length - 16) = pt := by
      simp [Toy.encrypt, Toy.tag]
    simp only [toySuite, Toy.decrypt, htake, if_true]
  shared_ok ha hb := by
    obtain ⟨hl, rfl⟩ := Toy.getPublicKey_eq_ok hb
    exact ⟨_, if_pos (Toy.isCompressed hl)⟩
  shared_comm ha hb h h' := by
    obtain ⟨hla, rfl⟩ := Toy.getPublicKey_eq_ok ha
    obtain ⟨hlb, rfl⟩ := Toy.getPublicKey_eq_ok hb
    simp only [toySuite, Toy.getSharedSecret, Toy.isCompressed hla, Toy.isCompressed hlb, if_true,
      Except.ok.injEq] at h h'
    subst h h'
    exact List.zipWith_comm_of_comm (fun x y => UInt8.xor_comm x y)
  shared_x h := by
    obtain ⟨h₁, h₂, ht⟩ := h
    simp [toySuite, Toy.getSharedSecret, h₁, h₂, ht]

/-- The identity whose secret key repeats one byte. -/
def toyIdentity (n : UInt8) : FipsIdentity :=
  ⟨List.replicate 32 n, 2 :: List.replicate 32 n, (toySuite.sha256 (List.replicate 32 n)).take 16⟩

theorem toyIdentity_valid (n : UInt8) : (toyIdentity n).Valid toySuite where
  publicKey := by simp [toyIdentity, toySuite, Toy.getPublicKey]
  nodeAddr := deriveNodeAddr_compressed (Toy.isCompressed (by simp))

end Fips
