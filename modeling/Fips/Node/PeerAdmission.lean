import Fips.Crypto.Suite

/-!
# `node/PeerAdmission.ts`: the blocked identities

A policy is a set of x-only keys. It is asked about public keys, whose last 32 bytes it looks up, and
about node addresses, which it derives from its keys.
-/

namespace Fips
open Exec

/-- The 32-byte key an identity is known by, whatever the parity of its compressed encoding. -/
abbrev XOnlyKey := { key : Bytes // key.length = 32 }

structure PeerAdmission where
  keys : List XOnlyKey
deriving DecidableEq

namespace PeerAdmission

/-- A key of the constructor: x-only, or compressed with prefix 02 or 03. -/
def normalize (key : Bytes) : Except String XOnlyKey :=
  if h : key.length = 32 then .ok ⟨key, h⟩
  else if h : IsCompressed key then .ok ⟨key.tail, by simp [h.1]⟩
  else .error "blocked peer must be x-only or compressed public key hex"

def new (keys : List Bytes) : Except String PeerAdmission := (keys.mapM normalize).map .mk

/-- The last 32 bytes of a public key. -/
def xOnly (pubkey : Bytes) : Bytes := pubkey.drop (pubkey.length - 32)

def allows (a : PeerAdmission) (pubkey : Bytes) : Bool := xOnly pubkey ∉ a.keys.map Subtype.val

def assertPeer (a : PeerAdmission) (pubkey : Bytes) : Except String Unit :=
  if a.allows pubkey then .ok () else .error "FIPS peer is blocked"

def assertNode (S : Suite) (a : PeerAdmission) (nodeAddr : Bytes) : Except String Unit :=
  if a.keys.any fun key => deriveNodeAddr S key.1 = .ok nodeAddr then .error "FIPS endpoint is blocked" else .ok ()

section
variable {S : Suite} {a : PeerAdmission} {pubkey nodeAddr : Bytes}

theorem assertPeer_eq_ok : a.assertPeer pubkey = .ok () ↔ xOnly pubkey ∉ a.keys.map Subtype.val := by
  simp [assertPeer, allows]

theorem assertNode_eq_ok : a.assertNode S nodeAddr = .ok () ↔ ∀ key ∈ a.keys, deriveNodeAddr S key.1 ≠ .ok nodeAddr := by
  unfold assertNode
  by_cases h : a.keys.any fun key => deriveNodeAddr S key.1 = .ok nodeAddr
  · rw [if_pos h]
    simpa using h
  · rw [if_neg h]
    simpa using h

/-- Both encodings of an identity have the node address of its x-only key. -/
theorem deriveNodeAddr_xOnly (h : deriveNodeAddr S pubkey = .ok nodeAddr) :
    (xOnly pubkey).length = 32 ∧ deriveNodeAddr S (xOnly pubkey) = .ok nodeAddr := by
  unfold deriveNodeAddr at h
  split at h
  · rename_i hl
    have hx : xOnly pubkey = pubkey := by simp [xOnly, hl]
    rw [hx]
    exact ⟨hl, by simpa [deriveNodeAddr, hl] using h⟩
  · split at h
    · rename_i hl
      have hx : xOnly pubkey = pubkey.tail := by simp [xOnly, hl]
      have ht : pubkey.tail.length = 32 := by simp [hl]
      split at h
      · cases h
      · rw [hx]
        exact ⟨ht, by simpa [deriveNodeAddr, ht] using h⟩
    · cases h

/-- A key whose node address is not blocked is not blocked. -/
theorem assertPeer_of_assertNode (hd : deriveNodeAddr S pubkey = .ok nodeAddr) (h : a.assertNode S nodeAddr = .ok ()) :
    a.assertPeer pubkey = .ok () := by
  rw [assertPeer_eq_ok]
  intro hmem
  obtain ⟨key, hk, hx⟩ := List.mem_map.1 hmem
  have hd' := (deriveNodeAddr_xOnly hd).2
  rw [← hx] at hd'
  exact assertNode_eq_ok.1 h key hk hd'

end

end PeerAdmission

end Fips
