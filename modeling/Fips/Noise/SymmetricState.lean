import Fips.Crypto.Suite

/-!
# `noise/cipherState.ts`, `noise/hkdf.ts`, `noise/symmetricState.ts`

The Noise symmetric layer. Both ends of a handshake run these methods on the same inputs, so what the
handshake needs is only that they succeed and that `decryptAndHash` undoes `encryptAndHash` from an
equal state.
-/

namespace Fips
open Exec

structure CipherState where
  key : Option Bytes
  n : Nat
deriving DecidableEq

/-- The counter that is never used: the nonce is exhausted. -/
def maxNonce : Nat := 0xffffffffffffffff

namespace CipherState

def new : CipherState := ⟨none, 0⟩

def withKey (key : Bytes) : Except String CipherState :=
  if key.length ≠ 32 then .error "ChaChaPoly key must be 32 bytes" else .ok ⟨some key, 0⟩

def encryptWithAd (S : Suite) (ad plaintext : Bytes) : EStateM String CipherState Bytes := do
  let c ← get
  match c.key with
  | none => return plaintext
  | some key =>
    if c.n ≥ maxNonce then throw "Noise nonce exhausted"
    set { c with n := c.n + 1 }
    return S.encrypt key (noiseNonce c.n) ad plaintext

def decryptWithAd (S : Suite) (ad ciphertext : Bytes) : EStateM String CipherState Bytes := do
  let c ← get
  match c.key with
  | none => return ciphertext
  | some key =>
    if c.n ≥ maxNonce then throw "Noise nonce exhausted"
    let pt ← lift (S.decrypt key (noiseNonce c.n) ad ciphertext)
    set { c with n := c.n + 1 }
    return pt

/-- `getKey()`. -/
def getKey (c : CipherState) : Except String Bytes :=
  match c.key with
  | none => .error "CipherState has no key"
  | some key => .ok key

end CipherState

def noiseHkdf2 (S : Suite) (chainingKey ikm : Bytes) : Bytes × Bytes :=
  let tempKey := S.hmac chainingKey ikm
  let out1 := S.hmac tempKey [0x01]
  (out1, S.hmac tempKey (out1 ++ [0x02]))

structure SymmetricState where
  h : Bytes
  ck : Bytes
  cipher : CipherState
deriving DecidableEq

/-- `new TextEncoder().encode(text)`. -/
def textEncode (text : String) : Bytes := text.toUTF8.data.toList

namespace SymmetricState

def new (S : Suite) (protocolName : String) : SymmetricState :=
  let nameBytes := textEncode protocolName
  let h := if nameBytes.length ≤ 32 then nameBytes ++ List.replicate (32 - nameBytes.length) 0
    else S.sha256 nameBytes
  ⟨h, h, .new⟩

def mixHash (S : Suite) (data : Bytes) (ss : SymmetricState) : SymmetricState :=
  { ss with h := S.sha256 (ss.h ++ data) }

def mixKey (S : Suite) (ikm : Bytes) : EStateM String SymmetricState Unit := do
  let ss ← get
  let (ck, tempK) := noiseHkdf2 S ss.ck ikm
  set { ss with ck }
  let cipher ← lift (CipherState.withKey tempK)
  modify ({ · with cipher })

/-- Runs a cipher method on the `cipher` field. -/
def onCipher {α : Type} (x : EStateM String CipherState α) : EStateM String SymmetricState α :=
  zoom (·.cipher) (fun cipher ss => { ss with cipher }) x

/-- With empty associated data, unlike the Noise specification. -/
def encryptAndHash (S : Suite) (plaintext : Bytes) : EStateM String SymmetricState Bytes := do
  let ct ← onCipher (CipherState.encryptWithAd S [] plaintext)
  modify (mixHash S ct)
  return ct

def decryptAndHash (S : Suite) (ciphertext : Bytes) : EStateM String SymmetricState Bytes := do
  let pt ← onCipher (CipherState.decryptWithAd S [] ciphertext)
  modify (mixHash S ciphertext)
  return pt

def split (S : Suite) (ss : SymmetricState) : Except String (CipherState × CipherState) := do
  let (k1, k2) := noiseHkdf2 S ss.ck []
  return (← CipherState.withKey k1, ← CipherState.withKey k2)

def cipherHasKey (ss : SymmetricState) : Bool := ss.cipher.key.isSome

/-- The state `mixKey` leaves: fresh chaining key and cipher, both from the same HKDF output. -/
def keyed (S : Suite) (ikm : Bytes) (ss : SymmetricState) : SymmetricState :=
  { ss with ck := (noiseHkdf2 S ss.ck ikm).1, cipher := ⟨some (noiseHkdf2 S ss.ck ikm).2, 0⟩ }

/-- The ciphertext `encryptAndHash` writes under `key`. -/
def sealed (S : Suite) (key plaintext : Bytes) (ss : SymmetricState) : Bytes :=
  S.encrypt key (noiseNonce ss.cipher.n) [] plaintext

/-- The state after a ciphertext has been written or read under a key. -/
def advanced (S : Suite) (ciphertext : Bytes) (ss : SymmetricState) : SymmetricState :=
  mixHash S ciphertext { ss with cipher := { ss.cipher with n := ss.cipher.n + 1 } }

section
variable {S : Suite} (hS : S.Lawful)
include hS

theorem length_hkdf2 (ck ikm : Bytes) : (noiseHkdf2 S ck ikm).1.length = 32 ∧ (noiseHkdf2 S ck ikm).2.length = 32 :=
  ⟨hS.hmac_length _ _, hS.hmac_length _ _⟩

theorem run_mixKey (ikm : Bytes) (ss : SymmetricState) : (mixKey S ikm).run ss = .ok () (keyed S ikm ss) := by
  simp [mixKey, CipherState.withKey, (length_hkdf2 hS ss.ck ikm).2, keyed]

theorem split_eq (ss : SymmetricState) :
    split S ss = .ok (⟨some (noiseHkdf2 S ss.ck []).1, 0⟩, ⟨some (noiseHkdf2 S ss.ck []).2, 0⟩) := by
  simp [split, CipherState.withKey, length_hkdf2 hS ss.ck []]

omit hS in
theorem run_encryptAndHash {ss : SymmetricState} {key : Bytes} (hk : ss.cipher.key = some key)
    (hn : ss.cipher.n < maxNonce) (pt : Bytes) :
    (encryptAndHash S pt).run ss = .ok (sealed S key pt ss) (advanced S (sealed S key pt ss) ss) := by
  have h : (CipherState.encryptWithAd S [] pt).run ss.cipher =
      .ok (sealed S key pt ss) { ss.cipher with n := ss.cipher.n + 1 } := by
    simp [CipherState.encryptWithAd, hk, Nat.not_le.2 hn, sealed]
  simp [encryptAndHash, onCipher, run_zoom_ok h, advanced]

theorem run_decryptAndHash {ss : SymmetricState} {key : Bytes} (hk : ss.cipher.key = some key)
    (hn : ss.cipher.n < maxNonce) (pt : Bytes) :
    (decryptAndHash S (sealed S key pt ss)).run ss = .ok pt (advanced S (sealed S key pt ss) ss) := by
  have h : (CipherState.decryptWithAd S [] (sealed S key pt ss)).run ss.cipher =
      .ok pt { ss.cipher with n := ss.cipher.n + 1 } := by
    simp [CipherState.decryptWithAd, hk, Nat.not_le.2 hn, sealed, hS.decrypt_encrypt]
  simp [decryptAndHash, onCipher, run_zoom_ok h, advanced]

theorem length_sealed (key pt : Bytes) (ss : SymmetricState) : (sealed S key pt ss).length = pt.length + 16 :=
  hS.encrypt_length _ _ _ _

end

end SymmetricState

end Fips
