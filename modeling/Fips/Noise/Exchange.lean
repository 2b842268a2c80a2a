import Fips.Crypto.Toy
import Fips.Noise.Agreement

/-!
# Honest runs of the two patterns

`ikMessages` and `xkMessages` run a whole handshake on two fresh Noise states. Both complete for lawful
primitives and end with the two states sharing one symmetric state, so with equal handshake hashes and
crosswise equal keys.
-/

namespace Fips
open Exec

/-- What one end brings to a handshake. -/
structure Party where
  identity : FipsIdentity
  epoch : Bytes
  ephemeralOverride : Option Bytes
  random : Bytes
deriving DecidableEq

/-- A key pair of the suite, an eight-byte epoch and a usable ephemeral scalar. -/
structure Party.Valid (S : Suite) (p : Party) : Prop where
  identity : p.identity.Valid S
  epoch : p.epoch.length = 8
  ephemeral : ∃ kp, genKeyPair S p.ephemeralOverride p.random = .ok kp

theorem deriveKeyPair_valid {S : Suite} {priv : Bytes} {kp : KeyPair} (h : deriveKeyPair S priv = .ok kp) :
    kp.Valid S := by
  obtain ⟨pub, hpub, h⟩ := except_bind_eq_ok.1 h
  cases h
  exact hpub

theorem genKeyPair_valid {S : Suite} {override : Option Bytes} {random : Bytes} {kp : KeyPair}
    (h : genKeyPair S override random = .ok kp) : kp.Valid S := by
  cases override with
  | none => exact deriveKeyPair_valid h
  | some priv =>
    simp only [genKeyPair] at h
    split at h
    · cases h
    · exact deriveKeyPair_valid h

/-- A toy party: one byte names its identity and epoch, one its ephemeral. -/
def toyParty (n ephemeral : UInt8) : Party := ⟨toyIdentity n, List.replicate 8 n, none, List.replicate 32 ephemeral⟩

theorem toyParty_valid (n ephemeral : UInt8) : (toyParty n ephemeral).Valid toySuite where
  identity := toyIdentity_valid n
  epoch := by simp [toyParty]
  ephemeral := ⟨_, by simp [toyParty, genKeyPair, deriveKeyPair, toySuite, Toy.getPublicKey]; rfl⟩

theorem toyIdentity_sameX (n : UInt8) : SameX (3 :: List.replicate 32 n) (toyIdentity n).publicKey :=
  ⟨⟨by simp, .inr rfl⟩, Toy.isCompressed (by simp), rfl⟩

namespace NoiseHandshake

/-- The messages of an IK run and the states of the initiator and the responder after it. -/
structure IkMessages where
  msg1 : Bytes
  msg2 : Bytes
  initiator : NoiseHandshake
  responder : NoiseHandshake

/-- An honest IK run. -/
def ikMessages (S : Suite) (I R : Party) (remoteStatic : Bytes) : Except String IkMessages := do
  let i ← new S .IK .initiator I.identity (some remoteStatic) I.ephemeralOverride
  let r ← new S .IK .responder R.identity none R.ephemeralOverride
  let (msg1, i) ← call (writeMessage S I.random I.epoch) i
  let (_, r) ← call (readMessage S msg1) r
  let (msg2, r) ← call (writeMessage S R.random R.epoch) r
  let (_, i) ← call (readMessage S msg2) i
  return ⟨msg1, msg2, i, r⟩

/-- The messages of an XK run and the states of the initiator and the responder after it. -/
structure XkMessages where
  msg1 : Bytes
  msg2 : Bytes
  msg3 : Bytes
  initiator : NoiseHandshake
  responder : NoiseHandshake

/-- An honest XK run: the first message has no payload, the others carry the sender's epoch. -/
def xkMessages (S : Suite) (I R : Party) (remoteStatic : Bytes) : Except String XkMessages := do
  let i ← new S .XK .initiator I.identity (some remoteStatic) I.ephemeralOverride
  let r ← new S .XK .responder R.identity none R.ephemeralOverride
  let (msg1, i) ← call (writeMessage S I.random []) i
  let (_, r) ← call (readMessage S msg1) r
  let (msg2, r) ← call (writeMessage S R.random R.epoch) r
  let (_, i) ← call (readMessage S msg2) i
  let (msg3, i) ← call (writeMessage S I.random I.epoch) i
  let (_, r) ← call (readMessage S msg3) r
  return ⟨msg1, msg2, msg3, i, r⟩

/-- The states an IK run goes through. -/
structure IkExchange (S : Suite) (I R : Party) (remoteStatic : Bytes) where
  (i₀ i₁ i₂ r₀ r₁ r₂ : NoiseHandshake)
  (msg1 msg2 : Bytes)
  new_i : new S .IK .initiator I.identity (some remoteStatic) I.ephemeralOverride = .ok i₀
  new_r : new S .IK .responder R.identity none R.ephemeralOverride = .ok r₀
  write₁ : (writeMessage S I.random I.epoch).run i₀ = .ok msg1 i₁
  read₁ : (readMessage S msg1).run r₀ = .ok I.epoch r₁
  remote : r₁.rs = some I.identity.publicKey
  write₂ : (writeMessage S R.random R.epoch).run r₁ = .ok msg2 r₂
  remote₂ : r₂.rs = some I.identity.publicKey
  read₂ : (readMessage S msg2).run i₁ = .ok R.epoch i₂
  length₁ : msg1.length = 106
  length₂ : msg2.length = 57
  ss : i₂.ss = r₂.ss
  role_i : i₂.role = .initiator
  role_r : r₂.role = .responder

/-- The states an XK run goes through. -/
structure XkExchange (S : Suite) (I R : Party) (remoteStatic : Bytes) where
  (i₀ i₁ i₂ i₃ r₀ r₁ r₂ r₃ : NoiseHandshake)
  (msg1 msg2 msg3 : Bytes)
  new_i : new S .XK .initiator I.identity (some remoteStatic) I.ephemeralOverride = .ok i₀
  new_r : new S .XK .responder R.identity none R.ephemeralOverride = .ok r₀
  write₁ : (writeMessage S I.random []).run i₀ = .ok msg1 i₁
  read₁ : (readMessage S msg1).run r₀ = .ok [] r₁
  write₂ : (writeMessage S R.random R.epoch).run r₁ = .ok msg2 r₂
  read₂ : (readMessage S msg2).run i₁ = .ok R.epoch i₂
  /-- The third message draws no ephemeral. -/
  write₃ : ∀ random, (writeMessage S random I.epoch).run i₂ = .ok msg3 i₃
  read₃ : (readMessage S msg3).run r₂ = .ok I.epoch r₃
  remote : r₃.rs = some I.identity.publicKey
  length₁ : msg1.length = 33
  length₂ : msg2.length = 57
  length₃ : msg3.length = 73
  ss : i₃.ss = r₃.ss
  role_i : i₃.role = .initiator
  role_r : r₃.role = .responder

theorem writeTokens_random {S : Suite} {toks : List Token} (h : .e ∉ toks) (random random' : Bytes) :
    writeTokens S random toks = writeTokens S random' toks := by
  induction toks with
  | nil => rfl
  | cons tok toks ih =>
    simp only [List.mem_cons, not_or] at h
    have htok : writeToken S random tok = writeToken S random' tok := by
      cases tok with
      | e => exact absurd rfl h.1
      | s | ee | es | se | ss => rfl
    rw [writeTokens, writeTokens, ih h.2, htok]

/-- A message without an ephemeral does not depend on the random bytes. -/
theorem run_writeMessage_random {S : Suite} {hs : NoiseHandshake} {toks : List Token}
    (ht : hs.tokensForStep hs.step = .ok toks) (h : .e ∉ toks) (random random' payload : Bytes) :
    (writeMessage S random payload).run hs = (writeMessage S random' payload).run hs := by
  simp only [writeMessage, EStateM.run_bind, run_get, ht, run_lift_ok, writeTokens_random h random random']

section
variable {S : Suite} (hS : S.Lawful) {I R : Party} {remoteStatic : Bytes}
include hS

/-- The two halves of the split, in the order of each role. -/
theorem splitTxRx_mirror {i r : NoiseHandshake} (hss : i.ss = r.ss) (hi : i.role = .initiator)
    (hr : r.role = .responder) :
    ∃ c₁ c₂, i.splitTxRx S = .ok (c₁, c₂) ∧ r.splitTxRx S = .ok (c₂, c₁) ∧
      (∃ k, c₁ = ⟨some k, 0⟩ ∧ k.length = 32) ∧ (∃ k, c₂ = ⟨some k, 0⟩ ∧ k.length = 32) := by
  have hi' : i.splitTxRx S = .ok (⟨some (noiseHkdf2 S i.ss.ck []).1, 0⟩, ⟨some (noiseHkdf2 S i.ss.ck []).2, 0⟩) := by
    simp [splitTxRx, SymmetricState.split_eq hS, hi]
  have hr' : r.splitTxRx S = .ok (⟨some (noiseHkdf2 S i.ss.ck []).2, 0⟩, ⟨some (noiseHkdf2 S i.ss.ck []).1, 0⟩) := by
    simp [splitTxRx, SymmetricState.split_eq hS, hr, hss]
  exact ⟨_, _, hi', hr', ⟨_, rfl, (SymmetricState.length_hkdf2 hS _ _).1⟩,
    ⟨_, rfl, (SymmetricState.length_hkdf2 hS _ _).2⟩⟩

theorem ik_exchange (hI : I.Valid S) (hR : R.Valid S) (hr : SameX remoteStatic R.identity.publicKey) :
    Nonempty (IkExchange S I R remoteStatic) := by
  obtain ⟨kpI, hkpI⟩ := hI.ephemeral
  obtain ⟨kpR, hkpR⟩ := hR.ephemeral
  obtain ⟨i, r, hi, hr', hm, hrole, hpat, h0, he, hrs, hpub, hovI, hroleR, hovR⟩ :=
    Mirror.fresh .IK hI.identity hR.identity hr I.ephemeralOverride R.ephemeralOverride
  have hplI : I.epoch ≠ [] := List.ne_nil_of_length_pos (by have := hI.epoch; omega)
  have hplR : R.epoch ≠ [] := List.ne_nil_of_length_pos (by have := hR.epoch; omega)
  obtain ⟨n₁, ss₁, hw₁, hr₁, hm₁, hl₁⟩ := hm.ik_msg1 hS hrole hpat h0 (by simp [hrs]) (hovI ▸ hkpI)
    (genKeyPair_valid hkpI) hplI
  obtain ⟨n₂, ss₂, hw₂, hr₂, hl₂⟩ := hm₁.symm.ik_msg2 hS hrole hpat rfl rfl (by simp [hrs])
    (show genKeyPair S r.ephemeralOverride R.random = .ok kpR from hovR ▸ hkpR) (genKeyPair_valid hkpR) hplR
  rw [hI.epoch] at hl₁
  rw [hR.epoch] at hl₂
  exact ⟨⟨_, _, _, _, _, _, n₁, n₂, hi, hr', hw₁, hr₁, congrArg some hpub, hw₂, congrArg some hpub, hr₂, hl₁, hl₂,
    rfl, hrole, hroleR⟩⟩

theorem xk_exchange (hI : I.Valid S) (hR : R.Valid S) (hr : SameX remoteStatic R.identity.publicKey) :
    Nonempty (XkExchange S I R remoteStatic) := by
  obtain ⟨kpI, hkpI⟩ := hI.ephemeral
  obtain ⟨kpR, hkpR⟩ := hR.ephemeral
  obtain ⟨i, r, hi, hr', hm, hrole, hpat, h0, he, hrs, hpub, hovI, hroleR, hovR⟩ :=
    Mirror.fresh .XK hI.identity hR.identity hr I.ephemeralOverride R.ephemeralOverride
  have hplI : I.epoch ≠ [] := List.ne_nil_of_length_pos (by have := hI.epoch; omega)
  have hplR : R.epoch ≠ [] := List.ne_nil_of_length_pos (by have := hR.epoch; omega)
  obtain ⟨n₁, ss₁, hw₁, hr₁, hm₁, hl₁⟩ := hm.xk_msg1 hS hrole hpat h0 (by simp [hrs]) (hovI ▸ hkpI)
    (genKeyPair_valid hkpI)
  obtain ⟨n₂, ss₂, hw₂, hr₂, hm₂, hk₂, hl₂⟩ := hm₁.symm.xk_msg2 hS hrole hpat rfl rfl
    (show genKeyPair S r.ephemeralOverride R.random = .ok kpR from hovR ▸ hkpR) (genKeyPair_valid hkpR) hplR
  obtain ⟨n₃, ss₃, hw₃, hr₃, hl₃⟩ := (@NoiseHandshake.Mirror.xk_msg3 _ _ I.random) hS hm₂.symm hrole hpat rfl rfl hk₂ hplI
  rw [hR.epoch] at hl₂
  rw [hI.epoch] at hl₃
  have hw₃' (random : Bytes) := (@run_writeMessage_random S
    { i with e := some kpI, re := some kpR.pub, ss := ss₂, step := 2 } [.s, .se] (by simp [tokensForStep, hpat])
    (by decide) random I.random I.epoch).trans hw₃
  exact ⟨⟨_, _, _, _, _, _, _, _, n₁, n₂, n₃, hi, hr', hw₁, hr₁, hw₂, hr₂, hw₃', hr₃, congrArg some hpub, hl₁, hl₂,
    hl₃, rfl, hrole, hroleR⟩⟩

end

end NoiseHandshake

end Fips
