import Fips.Fsp.Evolution

/-!
# Records

An `FspRecord` is what one call of `encryptMessage` was given and what it handed to the AEAD. A frame
carries a record whatever coordinates stand in front of the ciphertext, since they are not authenticated;
it opens under the keys of the other end as long as their replay window takes its counter.
-/

namespace Fips
open Exec

theorem CipherState.getKey_eq_ok {c : CipherState} {key : Bytes} : c.getKey = .ok key ↔ c.key = some key := by
  unfold getKey
  cases h : c.key with
  | none => simp
  | some k => simp

structure FspRecord where
  key : Bytes
  flags : Nat
  timestamp : Nat
  msgType : Nat
  payload : Bytes
  aead : Seal
deriving DecidableEq

namespace FspRecord

def inner (r : FspRecord) : FspInnerPacket := ⟨r.timestamp, r.msgType, 0, r.payload⟩

def kBit (r : FspRecord) : Bool := hasFlag r.flags FSP_FLAG_K

/-- The AEAD call is the one for the record's header and inner packet. -/
structure Made (S : Suite) (r : FspRecord) : Prop where
  bound : r.aead.counter < maxNonce
  inner : encodeFspInner r.inner = .ok r.aead.plaintext
  aad : encodeFspEstablishedHeader r.flags r.aead.counter r.aead.plaintext.length = .ok r.aead.aad
  ciphertext : aeadSeal S r.key r.aead.counter r.aead.plaintext r.aead.aad = .ok r.aead.ciphertext

/-- The frame decodes to the record's header and ciphertext. -/
structure Carries (frame : Bytes) (r : FspRecord) (est : FspEstablished) : Prop where
  decodes : decodeFspEstablished frame = .ok est
  flags : est.flags = r.flags
  counter : est.counter = r.aead.counter
  payloadLen : est.payloadLen = r.aead.plaintext.length
  ciphertext : est.ciphertext = r.aead.ciphertext

theorem exists_carries_iff {frame : Bytes} {r : FspRecord} : (∃ est, Carries frame r est) ↔
    ∃ est ∈ (decodeFspEstablished frame).toOption, est.flags = r.flags ∧ est.counter = r.aead.counter ∧
      est.payloadLen = r.aead.plaintext.length ∧ est.ciphertext = r.aead.ciphertext := by
  simp only [mem_toOption]
  exact ⟨fun ⟨est, h⟩ => ⟨est, h.decodes, h.flags, h.counter, h.payloadLen, h.ciphertext⟩,
    fun ⟨est, h₁, h₂, h₃, h₄, h₅⟩ => ⟨est, h₁, h₂, h₃, h₄, h₅⟩⟩

instance (frame : Bytes) (r : FspRecord) : Decidable (∃ est, Carries frame r est) := decidable_of_iff _ exists_carries_iff.symm

/-- An authenticated frame that was sealed as `r`. -/
structure Sealed (frame : Bytes) (key : Bytes) (r : FspRecord) : Prop where
  key : r.key = key
  call : ∀ est aad, decodeFspEstablished frame = .ok est →
    encodeFspEstablishedHeader est.flags est.counter est.payloadLen = .ok aad →
    r.aead.counter = est.counter ∧ r.aead.aad = aad ∧ r.aead.ciphertext = est.ciphertext

theorem sealed_iff {frame key : Bytes} {r : FspRecord} : Sealed frame key r ↔ r.key = key ∧
    ∀ est ∈ (decodeFspEstablished frame).toOption,
      ∀ aad ∈ (encodeFspEstablishedHeader est.flags est.counter est.payloadLen).toOption,
        r.aead.counter = est.counter ∧ r.aead.aad = aad ∧ r.aead.ciphertext = est.ciphertext := by
  simp only [mem_toOption]
  exact ⟨fun h => ⟨h.key, fun est he aad ha => h.call est aad he ha⟩, fun h => ⟨h.1, fun est aad he ha => h.2 est he aad ha⟩⟩

instance (frame key : Bytes) (r : FspRecord) : Decidable (Sealed frame key r) := decidable_of_iff _ sealed_iff.symm

variable {S : Suite} {r : FspRecord}

theorem Made.decodes (h : r.Made S) : decodeFspInner r.aead.plaintext = .ok r.inner := decodeFspInner_encode h.inner

theorem Made.eq_encrypt (h : r.Made S) : r.key.length = 32 ∧
    r.aead.ciphertext = S.encrypt r.key (noiseNonce r.aead.counter) r.aead.aad r.aead.plaintext := by
  have hct := h.ciphertext
  unfold aeadSeal at hct
  split at hct
  · cases hct
  · rename_i hk
    exact ⟨not_not.1 hk, (Except.ok.inj hct).symm⟩

theorem Made.opens (hS : S.Lawful) (h : r.Made S) :
    aeadOpen S r.key r.aead.counter r.aead.ciphertext r.aead.aad = .ok r.aead.plaintext := by
  obtain ⟨hk, hct⟩ := h.eq_encrypt
  rw [hct]
  exact aeadOpen_seal hS hk _ _ _

end FspRecord

theorem validateEstablishedFlags_eq_ok {flags : Nat} (h : validateEstablishedFlags flags = .ok ()) :
    flags < 256 ∧ hasFlag flags FSP_FLAG_U = false ∧ hasFlag flags FSP_FLAG_CP = false := by
  unfold validateEstablishedFlags at h
  by_cases hgt : flags > 0xff
  · simp [hgt] at h
  have hlt : flags < 256 := by omega
  refine ⟨hlt, ?_⟩
  clear hgt
  interval_cases flags <;> first | exact ⟨rfl, rfl⟩ | cases h

namespace FspSession
open FspRecord
variable {S : Suite} {r : FspRecord} {f f' : FspSession} {frame : Bytes} {est : FspEstablished} {pt : Bytes}

/-- The send key of an established session. -/
def txKey (f : FspSession) : Option Bytes := f.tx.bind CipherState.key

/-- The receive key of an established session. -/
def rxKey (f : FspSession) : Option Bytes := f.rx.bind CipherState.key

/-- A frame opens under the keys it was sealed for as long as their window takes its counter. -/
theorem authenticate_of_carries (hS : S.Lawful) (hm : r.Made S) (hc : Carries frame r est) (hst : f.state = .established)
    (hkey : f.rxKey = some r.key) (hcheck : f.replay.check r.aead.counter = true) :
    f.authenticate S frame = .ok (est, r.aead.plaintext) := by
  obtain ⟨rx, hrx, hk⟩ := Option.bind_eq_some_iff.1 hkey
  have hget : rx.getKey = .ok r.key := CipherState.getKey_eq_ok.2 hk
  have haad : encodeFspEstablishedHeader est.flags est.counter est.payloadLen = .ok r.aead.aad := by
    rw [hc.flags, hc.counter, hc.payloadLen]
    exact hm.aad
  have hopen : aeadOpen S r.key est.counter est.ciphertext r.aead.aad = .ok r.aead.plaintext := by
    rw [hc.counter, hc.ciphertext]
    exact hm.opens hS
  unfold authenticate
  simp only [hst, hrx, hc.decodes, ok_bind, hc.counter ▸ hcheck, Bool.not_true, Bool.false_eq_true, if_false, haad,
    hget, hopen, pure_eq_ok]

/-- What opens and was sealed opens to what was sealed. -/
theorem plaintext_of_sealed (hS : S.Lawful) (hm : r.Made S) (ha : f.authenticate S frame = .ok (est, pt)) {key : Bytes}
    (hkey : f.rxKey = some key) (hs : Sealed frame key r) : pt = r.aead.plaintext ∧ r.aead.counter = est.counter := by
  obtain ⟨rx, key', aad, -, hrx, hget, hdec, -, haad, hopen⟩ := authenticate_eq_ok ha
  obtain ⟨hc, had, hct⟩ := hs.call est aad hdec haad
  have hrxKey : f.rxKey = some key' := Option.bind_eq_some_iff.2 ⟨rx, hrx, CipherState.getKey_eq_ok.1 hget⟩
  have hk : key' = key := Option.some.inj (hrxKey.symm.trans hkey)
  rw [hk, ← hs.key, ← hc, ← hct, ← had, hm.opens hS] at hopen
  exact ⟨(Except.ok.inj hopen).symm, hc⟩

/-- The record a message without coordinates is sealed as. -/
def sealing (S : Suite) (msgType : Nat) (payload : Bytes) (flags : Nat) (nowMs : ℚ) (f : FspSession) :
    Except String FspRecord := do
  if f.txCounter ≥ maxNonce then throw "FSP nonce exhausted"
  let key := f.txKey.getD []
  let timestamp := toU32 (nowMs - f.sessionStartMs)
  let plaintext ← encodeFspInner ⟨timestamp, msgType, 0, payload⟩
  let aad ← encodeFspEstablishedHeader flags f.txCounter plaintext.length
  let ciphertext ← aeadSeal S key f.txCounter plaintext aad
  return ⟨key, flags, timestamp, msgType, payload, ⟨f.txCounter, aad, plaintext, ciphertext⟩⟩

theorem sealing_eq_ok {msgType flags : Nat} {payload : Bytes} {nowMs : ℚ}
    (h : f.sealing S msgType payload flags nowMs = .ok r) : r.Made S ∧ r.key = f.txKey.getD [] ∧ r.flags = flags ∧
      r.msgType = msgType ∧ r.payload = payload ∧ r.aead.counter = f.txCounter := by
  unfold sealing at h
  split at h
  · cases h
  rename_i hbound
  obtain ⟨plaintext, hpt, h⟩ := except_bind_eq_ok.1 h
  obtain ⟨aad, haad, h⟩ := except_bind_eq_ok.1 h
  obtain ⟨ct, hct, h⟩ := except_bind_eq_ok.1 h
  cases h
  exact ⟨⟨not_le.1 hbound, hpt, haad, hct⟩, rfl, rfl, rfl, rfl, rfl⟩

/-- Such a message is a frame that carries the record. -/
theorem encryptMessage_carries (hS : S.Lawful) {msgType flags : Nat} {payload : Bytes} {nowMs : ℚ}
    (h : (encryptMessage S msgType payload flags none nowMs).run f = .ok frame f') :
    ∃ r est, f.sealing S msgType payload flags nowMs = .ok r ∧ Carries frame r est := by
  have hwp : wp (encryptMessage S msgType payload flags none nowMs) (fun frame _ => ∃ r est,
      f.sealing S msgType payload flags nowMs = .ok r ∧ Carries frame r est) (fun _ _ => True) f := ?_
  · exact (wp_of_ok h).1 hwp
  unfold encryptMessage
  simp only [wp_bind, wp_get]
  split
  swap
  · exact trivial
  rename_i tx hst htx
  simp only [wp_ite, wp_throw, wp_bind, wp_set, wp_lift, implies_true, true_and, and_true]
  intro _ hbound frame hrun
  obtain ⟨inner, hinner, hrun⟩ := except_bind_eq_ok.1 hrun
  obtain ⟨_, hflags, hrun⟩ := except_bind_eq_ok.1 hrun
  obtain ⟨_, hcoords, hrun⟩ := except_bind_eq_ok.1 hrun
  cases hcoords
  obtain ⟨aad, haad, hrun⟩ := except_bind_eq_ok.1 hrun
  obtain ⟨key, hkey, hrun⟩ := except_bind_eq_ok.1 hrun
  obtain ⟨ct, hct, hrun⟩ := except_bind_eq_ok.1 hrun
  have htxKey : f.txKey.getD [] = key := by
    rw [show f.txKey = some key from Option.bind_eq_some_iff.2 ⟨tx, htx, CipherState.getKey_eq_ok.1 hkey⟩]
    rfl
  have hseal : f.sealing S msgType payload flags nowMs =
      .ok ⟨key, flags, toU32 (nowMs - f.sessionStartMs), msgType, payload, ⟨f.txCounter, aad, inner, ct⟩⟩ := by
    simp only [sealing, hbound, if_false, htxKey, hinner, haad, hct, ok_bind, pure_eq_ok]
  obtain ⟨hlt, hu, hcp⟩ := validateEstablishedFlags_eq_ok hflags
  obtain ⟨hk, hct'⟩ := (sealing_eq_ok hseal).1.eq_encrypt
  obtain ⟨hc, hl, haad'⟩ := encodeFspEstablishedHeader_eq_ok hlt haad
  have hlen : ct.length = inner.length + FSP_AEAD_TAG_LEN := by
    rw [show ct = _ from hct']
    exact hS.encrypt_length _ _ _ _
  simp only [encodeFspEstablished, hlen, ne_eq, not_true_eq_false, if_false, haad, ok_bind, encodeRecordCoords, hcp,
    Bool.false_eq_true, pure_eq_ok, List.append_nil, Except.ok.injEq] at hrun
  rw [← hrun, haad']
  exact ⟨_, _, hseal, decodeFspEstablished_append hlt hu hcp hc hl hlen, rfl, rfl, rfl, rfl⟩

end FspSession
end Fips
